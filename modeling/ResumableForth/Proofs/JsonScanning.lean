import ResumableForth.Proofs.JsonGrammar

/-! The scanner finds the tokens that a text spells. One way, each character that it takes carries on a
spelling of the tokens so far, up to one that is not finished. The other way, a spelling is followed token by
token; numbers and names end where a space or a mark comes next, and so it is between the tokens of a
value. -/
namespace ResumableForth
namespace Json

theorem areSpaces_iff (c : Char) : AreSpaces [c] ↔ Scanner.isSpace c = true := by
  simp [AreSpaces, Scanner.isSpace, or_assoc]

namespace Scanner

def Partial : Scanner → List Char → Prop
  | .between, read => read = []
  | .number phase chars, read => read = chars.reverse ∧ ∃ c rest start, read = c :: rest ∧
    NumberPhase.first c = some start ∧ rest.foldlM NumberPhase.next start = some phase
  | .name chars, read => read = chars.reverse
  | .string codes, read => ∃ body, read = '"' :: body ∧ Pieces codes.reverse body
  | .escape codes, read => ∃ body, read = '"' :: (body ++ ['\\']) ∧ Pieces codes.reverse body
  | .hex codes count code, read => ∃ body digits, read = '"' :: (body ++ '\\' :: 'u' :: digits) ∧
    Pieces codes.reverse body ∧ digits.length = count ∧ count < 4 ∧ hexValue? 0 digits = some code

/-- What has been read spells the tokens that have been found, up to one that is not finished. -/
def Scanned (scanner : Scanner) (found : List Token) (read : List Char) : Prop :=
  ∃ before part, read = before ++ part ∧ Spells found before ∧ scanner.Partial part

theorem Scanned.concat {scanner next : Scanner} {found : List Token} {read : List Char} {c : Char}
    (h : scanner.Scanned found read) (goes : ∀ part, scanner.Partial part → next.Partial (part ++ [c])) :
    next.Scanned (found ++ []) (read ++ [c]) := by
  obtain ⟨before, part, rfl, spelled, unfinished⟩ := h
  rw [List.append_nil]
  exact ⟨before, part ++ [c], List.append_assoc .., spelled, goes part unfinished⟩

theorem some_ite {α : Type} {p : Prop} [Decidable p] {x y : α} {rest : Option α}
    (h : (if p then some x else rest) = some y) : p ∧ x = y ∨ ¬ p ∧ rest = some y := by
  by_cases held : p
  · rw [if_pos held] at h
    exact .inl ⟨held, Option.some.inj h⟩
  · rw [if_neg held] at h
    exact .inr ⟨held, h⟩

/-- A character between tokens is a space, or a token by itself, or begins one. -/
theorem open?_cases {c : Char} {tokens : List Token} {next : Scanner}
    (h : open? c = some (tokens, next)) :
    (tokens = [] ∧ next = .between ∧ AreSpaces [c]) ∨
      (∃ token, tokens = [token] ∧ next = .between ∧ token.Spells [c]) ∨
      (tokens = [] ∧ next.Partial [c]) := by
  rw [open?] at h
  rcases some_ite h with ⟨space, same⟩ | ⟨-, h⟩
  · cases same
    exact .inl ⟨rfl, rfl, (areSpaces_iff c).mpr space⟩
  refine .inr ?_
  iterate 6
    rcases some_ite h with ⟨rfl, same⟩ | ⟨-, h⟩
    · cases same
      exact .inl ⟨_, rfl, rfl, by constructor⟩
  refine .inr ?_
  rcases some_ite h with ⟨rfl, same⟩ | ⟨-, h⟩
  · cases same
    exact ⟨rfl, [], rfl, .nil⟩
  rcases some_ite h with ⟨rfl, same⟩ | ⟨minus, h⟩
  · cases same
    exact ⟨rfl, rfl, '-', [], .sign, rfl, rfl, rfl⟩
  rcases some_ite h with ⟨rfl, same⟩ | ⟨zero, h⟩
  · cases same
    exact ⟨rfl, rfl, '0', [], .zero, rfl, rfl, rfl⟩
  rcases some_ite h with ⟨digit, same⟩ | ⟨-, h⟩
  · cases same
    exact ⟨rfl, rfl, c, [], .whole, rfl, by simp [NumberPhase.first, minus, zero, digit], rfl⟩
  split at h
  · cases h
    exact ⟨rfl, rfl⟩
  · cases h

theorem spells_of_nameToken? {chars : List Char} {token : Token} (h : nameToken? chars = some token) :
    token.Spells chars.reverse := by
  have letters {name : String} (same : String.ofList chars.reverse = name) :
      chars.reverse = name.toList := by
    rw [← same, String.toList_ofList]
  rw [nameToken?] at h
  split at h
  · rename_i name
    cases h
    rw [letters name]
    exact .null
  · rename_i name
    cases h
    rw [letters name]
    exact .truth
  · rename_i name
    cases h
    rw [letters name]
    exact .falsehood
  · cases h

theorem Scanned.close {scanner : Scanner} {found ended : List Token} {read : List Char}
    (h : scanner.Scanned found read) (closes : scanner.close? = some ended) :
    Spells (found ++ ended) read := by
  obtain ⟨before, part, rfl, spelled, unfinished⟩ := h
  cases scanner with
  | between =>
    cases closes
    obtain rfl : part = [] := unfinished
    rw [List.append_nil, List.append_nil]
    exact spelled
  | number phase chars =>
    rw [close?] at closes
    split at closes
    · rename_i ends
      cases closes
      obtain ⟨rfl, c, rest, start, chars', begins, phases⟩ := unfinished
      apply spelled.concat
      have written : IsNumeral chars.reverse := by
        rw [chars']
        exact NumberPhase.isNumeral_of_foldlM begins phases ends
      have token := Token.Spells.number
        (show IsNumeral (String.ofList chars.reverse).toList by rw [String.toList_ofList]; exact written)
      rw [String.toList_ofList] at token
      exact token
    · cases closes
  | name chars =>
    obtain ⟨token, named, rfl⟩ := Option.map_eq_some_iff.mp closes
    obtain rfl : part = chars.reverse := unfinished
    exact spelled.concat (spells_of_nameToken? named)
  | string | escape | hex => cases closes

theorem Scanned.open {found tokens : List Token} {read : List Char} {c : Char} {next : Scanner}
    (spelled : Spells found read) (opens : open? c = some (tokens, next)) :
    next.Scanned (found ++ tokens) (read ++ [c]) := by
  rcases open?_cases opens with ⟨rfl, rfl, blank⟩ | ⟨token, rfl, rfl, mark⟩ | ⟨rfl, begun⟩
  · rw [List.append_nil]
    exact ⟨read ++ [c], [], (List.append_nil _).symm, spelled.concat_space blank, rfl⟩
  · exact ⟨read ++ [c], [], (List.append_nil _).symm, spelled.concat mark, rfl⟩
  · rw [List.append_nil]
    exact ⟨read, [c], rfl, spelled, begun⟩

theorem Scanned.reopen {scanner next : Scanner} {found tokens : List Token} {read : List Char} {c : Char}
    (h : scanner.Scanned found read) (fed : scanner.reopen? c = some (tokens, next)) :
    next.Scanned (found ++ tokens) (read ++ [c]) := by
  obtain ⟨ended, closes, rest⟩ := Option.bind_eq_some_iff.mp fed
  obtain ⟨⟨begun, last⟩, opens, same⟩ := Option.bind_eq_some_iff.mp rest
  cases same
  rw [← List.append_assoc]
  exact .open (h.close closes) opens

section

variable {next : Scanner} {found tokens : List Token} {read : List Char} {c : Char}

theorem Scanned.feedNumber {phase : NumberPhase} {chars : List Char}
    (h : (number phase chars).Scanned found read)
    (fed : (number phase chars).feed? c = some (tokens, next)) :
    next.Scanned (found ++ tokens) (read ++ [c]) := by
  rw [feed?] at fed
  split at fed
  · rename_i later goes
    cases fed
    refine h.concat ?_
    rintro part ⟨rfl, d, rest, start, same, begins, phases⟩
    refine ⟨List.reverse_cons.symm, d, rest ++ [c], start, ?_, begins, ?_⟩
    · rw [same]
      rfl
    · rw [List.foldlM_append, phases]
      simpa using goes
  · exact h.reopen fed

theorem Scanned.feedString {codes : List Nat} (h : (string codes).Scanned found read)
    (fed : (string codes).feed? c = some (tokens, next)) :
    next.Scanned (found ++ tokens) (read ++ [c]) := by
  rw [feed?] at fed
  split at fed
  · subst c
    cases fed
    obtain ⟨before, part, rfl, spelled, body, rfl, pieces⟩ := h
    have token := Token.Spells.string pieces ((decodes_iff pieces.code_lt).mpr rfl)
    refine ⟨before ++ '"' :: (body ++ ['"']), [], ?_, spelled.concat token, rfl⟩
    simp
  · rename_i quote
    split at fed
    · subst c
      cases fed
      refine h.concat ?_
      rintro part ⟨body, rfl, pieces⟩
      exact ⟨body, rfl, pieces⟩
    · rename_i backslash
      split at fed
      · cases fed
      · rename_i visible
        cases fed
        refine h.concat ?_
        rintro part ⟨body, rfl, pieces⟩
        refine ⟨body ++ [c], rfl, ?_⟩
        rw [List.reverse_cons]
        exact pieces.concat (.plain c (Nat.le_of_not_lt visible) quote backslash)

theorem Scanned.feedEscape {codes : List Nat} (h : (escape codes).Scanned found read)
    (fed : (escape codes).feed? c = some (tokens, next)) :
    next.Scanned (found ++ tokens) (read ++ [c]) := by
  rw [feed?] at fed
  split at fed
  · subst c
    cases fed
    refine h.concat ?_
    rintro part ⟨body, rfl, pieces⟩
    refine ⟨body, [], ?_, pieces, rfl, by decide, rfl⟩
    simp
  · obtain ⟨code, known, same⟩ := Option.map_eq_some_iff.mp fed
    cases same
    refine h.concat ?_
    rintro part ⟨body, rfl, pieces⟩
    refine ⟨body ++ ['\\', c], ?_, ?_⟩
    · simp
    · rw [List.reverse_cons]
      exact pieces.concat (.short known)

theorem Scanned.feedHex {codes : List Nat} {count code : Nat} (h : (hex codes count code).Scanned found read)
    (fed : (hex codes count code).feed? c = some (tokens, next)) :
    next.Scanned (found ++ tokens) (read ++ [c]) := by
  obtain ⟨digit, known, same⟩ := Option.map_eq_some_iff.mp fed
  have grown (digits : List Char) (value : hexValue? 0 digits = some code) :
      hexValue? 0 (digits ++ [c]) = some (16 * code + digit) := by
    rw [hexValue?, List.foldlM_append, ← hexValue?, value]
    simp [known]
  split at same
  · rename_i last
    cases same
    refine h.concat ?_
    rintro part ⟨body, digits, rfl, pieces, size, -, value⟩
    refine ⟨body ++ '\\' :: 'u' :: (digits ++ [c]), ?_, ?_⟩
    · simp
    · rw [List.reverse_cons]
      refine pieces.concat (.hex ?_ (grown digits value))
      rw [List.length_append, size, last]
      rfl
  · rename_i more
    cases same
    refine h.concat ?_
    rintro part ⟨body, digits, rfl, pieces, size, few, value⟩
    refine ⟨body, digits ++ [c], ?_, pieces, ?_, ?_, grown digits value⟩
    · simp
    · rw [List.length_append, size]
      rfl
    · omega

/-- One character is taken, whatever the scanner is in the middle of. -/
theorem Scanned.feed {scanner : Scanner} (h : scanner.Scanned found read)
    (fed : scanner.feed? c = some (tokens, next)) : next.Scanned (found ++ tokens) (read ++ [c]) := by
  cases scanner with
  | between =>
    have spelled := h.close rfl
    rw [List.append_nil] at spelled
    exact .open spelled fed
  | number phase chars => exact h.feedNumber fed
  | name chars =>
    rw [feed?] at fed
    split at fed
    · cases fed
      refine h.concat ?_
      rintro part rfl
      exact List.reverse_cons.symm
    · exact h.reopen fed
  | string codes => exact h.feedString fed
  | escape codes => exact h.feedEscape fed
  | hex codes count code => exact h.feedHex fed

end

/-- All that is read spells the tokens that are found. -/
theorem Scanned.scan {scanner : Scanner} {done result : List Token} {read chars : List Char}
    (h : scanner.Scanned done.reverse read) (scanned : scanner.scan done chars = some result) :
    Spells result (read ++ chars) := by
  induction chars generalizing scanner done read with
  | nil =>
    obtain ⟨ended, closes, rfl⟩ := Option.map_eq_some_iff.mp scanned
    rw [List.append_nil]
    exact h.close closes
  | cons c chars ih =>
    rw [Scanner.scan] at scanned
    split at scanned
    · rename_i tokens next fed
      have further := h.feed fed
      rw [List.append_cons]
      apply ih ?_ scanned
      rw [List.reverseAux_eq, List.reverse_append, List.reverse_reverse]
      exact further
    · cases scanned

/-- What can stand behind a number or a name: nothing, a space or a mark. -/
def Delimited : List Char → Prop
  | [] => True
  | c :: _ => c ∈ [' ', '\t', '\n', '\r', ',', ':', '[', ']', '\x7b', '\x7d']

theorem scan_nil (scanner : Scanner) (done : List Token) :
    scan scanner done [] = scanner.close?.map fun ended => done.reverse ++ ended := rfl

theorem scan_cons {scanner next : Scanner} {c : Char} {tokens : List Token}
    (h : scanner.feed? c = some (tokens, next)) (done : List Token) (rest : List Char) :
    scan scanner done (c :: rest) = scan next (tokens.reverse ++ done) rest := by
  simp only [scan, h, List.reverseAux_eq]

theorem next_eq_none_of_delimited {c : Char} {rest : List Char} (h : Delimited (c :: rest))
    (phase : NumberPhase) : phase.next c = none := by
  simp only [Delimited, List.mem_cons, List.not_mem_nil, or_false] at h
  rcases h with rfl | rfl | rfl | rfl | rfl | rfl | rfl | rfl | rfl | rfl <;> cases phase <;> decide

theorem isLetter_eq_false_of_delimited {c : Char} {rest : List Char} (h : Delimited (c :: rest)) :
    isLetter c = false := by
  simp only [Delimited, List.mem_cons, List.not_mem_nil, or_false] at h
  rcases h with rfl | rfl | rfl | rfl | rfl | rfl | rfl | rfl | rfl | rfl <;> decide

theorem open?_of_delimited {c : Char} {rest : List Char} (h : Delimited (c :: rest)) :
    ∃ tokens, open? c = some (tokens, .between) := by
  simp only [Delimited, List.mem_cons, List.not_mem_nil, or_false] at h
  rcases h with rfl | rfl | rfl | rfl | rfl | rfl | rfl | rfl | rfl | rfl <;> exact ⟨_, rfl⟩

/-- A token that may end, ends before a delimiter. -/
theorem scan_ended {scanner : Scanner} {ended : List Token} (closes : scanner.close? = some ended)
    (breaks : ∀ c rest, Delimited (c :: rest) → scanner.feed? c = scanner.reopen? c)
    (done : List Token) {rest : List Char} (h : Delimited rest) :
    scan scanner done rest = scan .between (ended.reverse ++ done) rest := by
  cases rest with
  | nil =>
    rw [scan_nil, scan_nil, closes, show close? .between = some [] from rfl]
    simp
  | cons c rest =>
    obtain ⟨tokens, opened⟩ := open?_of_delimited h
    have fed : scanner.feed? c = some (ended ++ tokens, .between) := by
      rw [breaks c rest h, reopen?, closes, opened]
      rfl
    rw [scan_cons fed, scan_cons (show feed? .between c = some (tokens, .between) from opened)]
    simp

theorem scan_number_digits {start stop : NumberPhase} {rest : List Char} (read : List Char)
    (h : rest.foldlM NumberPhase.next start = some stop) (done : List Token)
    (behind : List Char) :
    scan (.number start read) done (rest ++ behind) =
      scan (.number stop (rest.reverse ++ read)) done behind := by
  induction rest generalizing start read with
  | nil =>
    obtain rfl : start = stop := by simpa using h
    rfl
  | cons c rest ih =>
    rw [List.foldlM_cons] at h
    obtain ⟨phase, next, later⟩ := Option.bind_eq_some_iff.mp h
    have fed : feed? (.number start read) c = some ([], .number phase (c :: read)) := by
      simp [feed?, next]
    rw [List.cons_append, scan_cons fed]
    simpa using ih (c :: read) later

theorem open?_of_first {c : Char} {start : NumberPhase} (h : NumberPhase.first c = some start) :
    open? c = some ([], .number start [c]) := by
  rw [NumberPhase.first] at h
  rcases some_ite h with ⟨rfl, rfl⟩ | ⟨minus, h⟩
  · rfl
  rcases some_ite h with ⟨rfl, rfl⟩ | ⟨zero, h⟩
  · rfl
  split at h
  · rename_i digit
    cases h
    have other (d : Char) (hd : Decimal.isDigit d = false) : c ≠ d := by
      rintro rfl
      simp [digit] at hd
    have space : isSpace c = false := by
      simp [isSpace, other ' ' (by decide), other '\t' (by decide), other '\n' (by decide),
        other '\r' (by decide)]
    simp [open?, space, minus, zero, digit, other '[' (by decide), other ']' (by decide),
      other '\x7b' (by decide), other '\x7d' (by decide), other ',' (by decide),
      other ':' (by decide), other '"' (by decide)]
  · cases h

theorem scan_number {numeral : String} (h : IsNumeral numeral.toList) (done : List Token)
    {rest : List Char} (delimited : Delimited rest) :
    scan .between done (numeral.toList ++ rest) = scan .between (.number numeral :: done) rest := by
  obtain ⟨c, digits, start, stop, chars, first, phases, ends⟩ := NumberPhase.exists_foldlM_of_isNumeral h
  have fed : feed? .between c = some ([], .number start [c]) := open?_of_first first
  have closes : close? (.number stop (digits.reverse ++ [c])) = some [.number numeral] := by
    have text : String.ofList (digits.reverse ++ [c]).reverse = numeral := by
      simp [← chars]
    rw [close?, if_pos ends, text]
  have breaks (d : Char) (behind : List Char) (hd : Delimited (d :: behind)) :
      feed? (.number stop (digits.reverse ++ [c])) d =
        reopen? (.number stop (digits.reverse ++ [c])) d := by
    simp [feed?, next_eq_none_of_delimited hd]
  rw [chars, List.cons_append, scan_cons fed, scan_number_digits _ phases,
    scan_ended closes breaks _ delimited]
  rfl

theorem scan_name (c : Char) (letters : List Char) {token : Token}
    (opens : open? c = some ([], .name [c])) (more : letters.all isLetter = true)
    (known : nameToken? (letters.reverse ++ [c]) = some token) (done : List Token)
    {rest : List Char} (delimited : Delimited rest) :
    scan .between done (c :: letters ++ rest) = scan .between (token :: done) rest := by
  have goesOn (read done : List _) (behind : List Char) :
      scan (.name read) done (letters ++ behind) =
        scan (.name (letters.reverse ++ read)) done behind := by
    clear known
    induction letters generalizing read with
    | nil => rfl
    | cons d letters ih =>
      rw [List.all_cons, Bool.and_eq_true] at more
      have fed : feed? (.name read) d = some ([], .name (d :: read)) := by
        simp [feed?, more.1]
      rw [List.cons_append, scan_cons fed]
      simpa using ih more.2 (d :: read)
  have closes : close? (.name (letters.reverse ++ [c])) = some [token] := by
    simp [close?, known]
  have breaks (d : Char) (behind : List Char) (hd : Delimited (d :: behind)) :
      feed? (.name (letters.reverse ++ [c])) d = reopen? (.name (letters.reverse ++ [c])) d := by
    simp [feed?, isLetter_eq_false_of_delimited hd]
  rw [List.cons_append, scan_cons (show feed? .between c = _ from opens), goesOn,
    scan_ended closes breaks _ delimited]
  rfl

theorem scan_hex {digits : List Char} {code value : Nat} (h : hexValue? code digits = some value)
    {count : Nat} (four : count + digits.length = 4) (few : count < 4) (codes : List Nat)
    (done : List Token) (rest : List Char) :
    scan (.hex codes count code) done (digits ++ rest) = scan (.string (value :: codes)) done rest := by
  induction digits generalizing code count with
  | nil =>
    rw [List.length_nil] at four
    omega
  | cons c digits ih =>
    rw [hexValue?, List.foldlM_cons] at h
    obtain ⟨_, step, later⟩ := Option.bind_eq_some_iff.mp h
    obtain ⟨digit, read, rfl⟩ := Option.map_eq_some_iff.mp step
    rw [List.length_cons] at four
    by_cases last : count = 3
    · obtain rfl : digits = [] := List.eq_nil_of_length_eq_zero (by omega)
      cases later
      have fed : feed? (.hex codes count code) c = some ([], .string ((16 * code + digit) :: codes)) := by
        simp [feed?, read, last]
      exact scan_cons fed done rest
    · have fed : feed? (.hex codes count code) c =
          some ([], .hex codes (count + 1) (16 * code + digit)) := by
        simp [feed?, read, last]
      rw [List.cons_append, scan_cons fed]
      exact ih later (by omega) (by omega)

theorem scan_piece {code : Nat} {text : List Char} (h : Piece code text) (codes : List Nat)
    (done : List Token) (rest : List Char) :
    scan (.string codes) done (text ++ rest) = scan (.string (code :: codes)) done rest := by
  cases h with
  | plain c visible quote backslash =>
    have fed : feed? (.string codes) c = some ([], .string (c.toNat :: codes)) := by
      simp [feed?, quote, backslash, Nat.not_lt.mpr visible]
    exact scan_cons fed done rest
  | @short c _ known =>
    have letter : c ≠ 'u' := by
      rintro rfl
      cases known
    have fed : feed? (.escape codes) c = some ([], .string (code :: codes)) := by
      simp [feed?, letter, known]
    exact scan_cons fed done rest
  | hex four value => exact scan_hex value (by rw [four]) (by decide) codes done rest

theorem scan_pieces {codes : List Nat} {body : List Char} (h : Pieces codes body) (before : List Nat)
    (done : List Token) (rest : List Char) :
    scan (.string before) done (body ++ rest) = scan (.string (codes.reverse ++ before)) done rest := by
  induction h generalizing before with
  | nil => rfl
  | cons first later ih =>
    rw [List.append_assoc, scan_piece first, ih, List.reverse_cons, List.append_assoc]
    rfl

end Scanner

def Token.isMark : Token → Bool
  | .openArray | .closeArray | .openObject | .closeObject | .comma | .colon => true
  | _ => false

def Parted : List Token → Prop
  | [] => True
  | token :: _ => token.isMark = true

def Apart : List Token → Prop
  | [] => True
  | token :: tokens => (token.isMark = true ∨ Parted tokens) ∧ Apart tokens

namespace Scanner

theorem delimited_of_mark {token : Token} {text : List Char} (spelled : token.Spells text)
    (mark : token.isMark = true) (rest : List Char) : Delimited (text ++ rest) := by
  cases spelled with
  | openArray | closeArray | openObject | closeObject | comma | colon => simp [Delimited]
  | null | truth | falsehood | number | string => cases mark

theorem delimited_spaces {spaces rest : List Char} (blank : AreSpaces spaces) (h : Delimited rest) :
    Delimited (spaces ++ rest) := by
  cases spaces with
  | nil => exact h
  | cons c spaces =>
    have space := blank c List.mem_cons_self
    rcases space with rfl | rfl | rfl | rfl <;> simp [Delimited]

theorem delimited_of_parted {tokens : List Token} {chars : List Char} (spelled : Spells tokens chars)
    (parted : Parted tokens) : Delimited chars := by
  cases spelled with
  | nil blank =>
    have none := delimited_spaces blank (show Delimited [] from trivial)
    rw [List.append_nil] at none
    exact none
  | cons blank first later => exact delimited_spaces blank (delimited_of_mark first parted _)

theorem scan_spaces {spaces : List Char} (blank : AreSpaces spaces) (done : List Token) (rest : List Char) :
    scan .between done (spaces ++ rest) = scan .between done rest := by
  induction spaces with
  | nil => rfl
  | cons c spaces ih =>
    obtain ⟨space, others⟩ := List.forall_mem_cons.mp blank
    have fed : feed? .between c = some ([], .between) := by
      rcases space with rfl | rfl | rfl | rfl <;> rfl
    rw [List.cons_append, scan_cons fed]
    exact ih others

theorem scan_token {token : Token} {text : List Char} (spelled : token.Spells text) (done : List Token)
    {rest : List Char} (ends : token.isMark = true ∨ Delimited rest) :
    scan .between done (text ++ rest) = scan .between (token :: done) rest := by
  cases spelled with
  | openArray | closeArray | openObject | closeObject | comma | colon => rfl
  | null => exact scan_name 'n' ['u', 'l', 'l'] rfl rfl rfl done (ends.resolve_left (by decide))
  | truth => exact scan_name 't' ['r', 'u', 'e'] rfl rfl rfl done (ends.resolve_left (by decide))
  | falsehood => exact scan_name 'f' ['a', 'l', 's', 'e'] rfl rfl rfl done (ends.resolve_left (by decide))
  | number written => exact scan_number written done (ends.resolve_left Bool.false_ne_true)
  | @string codes body text pieces decodes =>
    have opened : feed? .between '"' = some ([], .string []) := rfl
    have closed : feed? (.string (codes.reverse ++ [])) '"' = some ([.string text], .between) := by
      rw [feed?, if_pos rfl, List.append_nil, List.reverse_reverse, (decodes_iff pieces.code_lt).mp decodes]
    rw [List.cons_append, List.append_assoc, scan_cons opened, scan_pieces pieces, List.singleton_append,
      scan_cons closed]
    rfl

/-- The tokens that a text spells are found, when marks stand between them. -/
theorem scan_spells {tokens : List Token} {chars : List Char} (spelled : Spells tokens chars)
    (apart : Apart tokens) (done : List Token) :
    scan .between done chars = some (done.reverse ++ tokens) := by
  induction spelled generalizing done with
  | nil blank =>
    have scanned := scan_spaces blank done []
    rw [List.append_nil] at scanned
    rw [scanned]
    simp [scan_nil, close?]
  | @cons token tokens spaces text rest blank first later ih =>
    rw [scan_spaces blank, scan_token first done (apart.1.imp_right (delimited_of_parted later)),
      ih apart.2, List.reverse_cons, List.append_assoc]
    rfl

end Scanner

/-- The tokens that are found are spelled by the text. -/
theorem spells_of_tokens? {source : String} {tokens : List Token} (h : tokens? source = some tokens) :
    Spells tokens source.toList := by
  have fresh : Scanner.Scanned .between [] [] := ⟨[], [], rfl, .empty, rfl⟩
  exact fresh.scan h

mutual

theorem apart_tokensOf (value : Json) {more : List Token} (apart : Apart more) (parted : Parted more) :
    Apart (tokensOf value ++ more) := by
  match value with
  | .null | .bool _ | .number _ | .string _ => exact ⟨.inr parted, apart⟩
  | .array [] => exact ⟨.inl rfl, .inl rfl, apart⟩
  | .array (item :: items) =>
    have closed : Apart (.closeArray :: more) := ⟨.inl rfl, apart⟩
    have others := apart_tokensOfItems items closed rfl
    have first := apart_tokensOf item others.2 others.1
    simp only [tokensOf, tokensOfItems, List.drop_one, List.tail_cons, List.cons_append, List.append_assoc,
      List.nil_append]
    exact ⟨.inl rfl, first⟩
  | .object [] => exact ⟨.inl rfl, .inl rfl, apart⟩
  | .object ((key, item) :: members) =>
    have closed : Apart (.closeObject :: more) := ⟨.inl rfl, apart⟩
    have others := apart_tokensOfMembers members closed rfl
    have first := apart_tokensOf item others.2 others.1
    simp only [tokensOf, tokensOfMembers, List.drop_one, List.tail_cons, List.cons_append, List.append_assoc,
      List.nil_append]
    exact ⟨.inl rfl, .inr rfl, .inl rfl, first⟩

theorem apart_tokensOfItems (items : List Json) {more : List Token} (apart : Apart more)
    (parted : Parted more) : Parted (tokensOfItems items ++ more) ∧ Apart (tokensOfItems items ++ more) := by
  match items with
  | [] => exact ⟨parted, apart⟩
  | item :: items =>
    have others := apart_tokensOfItems items apart parted
    have first := apart_tokensOf item others.2 others.1
    rw [tokensOfItems, List.cons_append, List.append_assoc]
    exact ⟨rfl, .inl rfl, first⟩

theorem apart_tokensOfMembers (members : List (Option String × Json)) {more : List Token}
    (apart : Apart more) (parted : Parted more) :
    Parted (tokensOfMembers members ++ more) ∧ Apart (tokensOfMembers members ++ more) := by
  match members with
  | [] => exact ⟨parted, apart⟩
  | (key, item) :: members =>
    have others := apart_tokensOfMembers members apart parted
    have first := apart_tokensOf item others.2 others.1
    simp only [tokensOfMembers, List.cons_append, List.append_assoc]
    exact ⟨rfl, .inl rfl, .inr rfl, .inl rfl, first⟩

end

/-- The tokens of a value are found in a text exactly when it spells the value. -/
theorem tokens?_eq_some_iff (value : Json) (source : String) :
    tokens? source = some (tokensOf value) ↔ value.SpelledBy source := by
  constructor
  · exact spells_of_tokens?
  · intro spelled
    have apart := apart_tokensOf value (show Apart [] from trivial) (show Parted [] from trivial)
    rw [List.append_nil] at apart
    exact Scanner.scan_spells spelled apart []

end Json
end ResumableForth
