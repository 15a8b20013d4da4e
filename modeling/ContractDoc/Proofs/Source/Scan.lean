import ContractDoc.Proofs.Source.Lexeme

/-!
# Which texts have a skeleton

A text has a skeleton exactly if it is a row of lexemes, and the row says at every
place whether the skeleton keeps the character or hides it.  Every other text begins
with a row of lexemes, behind which a comment or a literal opens that never closes;
the scan fails on the line on which it opens.
-/

namespace ContractDoc
namespace Lexeme

/-- Whether the skeleton keeps the character at an index of a lexeme, be it a line feed
or not: it keeps code and the quotes around a literal. -/
def keeps : Lexeme → Nat → Bool
  | lineComment _, _ => false
  | blockComment _, _ => false
  | literal _ body, index => index == 0 || index == body.length + 1
  | code _, _ => true

/-- A text is what the skeleton shows of a row of lexemes.  It has the same length, keeps
the line feeds and what `keeps` names, and has a space in all other places. -/
structure Blanks (lexemes : List Lexeme) (shown : List Char) : Prop where
  length_eq : shown.length = (lexemes.flatMap raw).length
  getElem?_eq : ∀ before lexeme after index c,
    lexemes = before ++ lexeme :: after → lexeme.raw[index]? = some c →
      shown[(before.flatMap raw).length + index]? =
        some (if c = '\n' ∨ lexeme.keeps index then c else ' ')

/-- A text opens a comment or a literal that never closes, and what is wrong with it. -/
inductive Unclosed : List Char → ParseFault → Prop
  | comment {rest : List Char}
      (neverEnds : ¬ ['*', '/'] <:+: rest) :
      Unclosed ('/' :: '*' :: rest) .unterminatedComment
  | literal {quote : Char} {rest : List Char}
      (opens : IsQuote quote)
      (neverEnds : ∀ body after, LiteralBody quote body → rest ≠ body ++ quote :: after) :
      Unclosed (quote :: rest) .unterminatedString

/-! ## What the skeleton shows -/

/-- The characters of a lexeme are kept or hidden one by one. -/
theorem getElem?_glyphs (lexeme : Lexeme) (index : Nat) :
    lexeme.glyphs[index]? = lexeme.raw[index]?.map fun c =>
      if lexeme.keeps index then .kept c else .blanked c := by
  cases lexeme with
  | lineComment body =>
    rw [glyphs, raw, List.getElem?_map]
    rfl
  | blockComment body =>
    rw [glyphs, raw, List.getElem?_map]
    rfl
  | literal quote body =>
    cases index with
    | zero => rfl
    | succ index =>
      simp only [glyphs, raw, keeps, List.getElem?_cons_succ, List.getElem?_append,
        List.getElem?_map, List.length_map]
      by_cases inside : index < body.length
      · simp [inside, Nat.ne_of_lt inside]
      · rw [if_neg inside, if_neg inside]
        rcases offset : index - body.length with _ | offset
        · have closing : index = body.length := by omega
          simp [closing]
        · simp
  | code c => cases index <;> rfl

theorem shown_of_keeps (lexeme : Lexeme) (index : Nat) (c : Char) :
    (if lexeme.keeps index then Glyph.kept c else .blanked c).shown =
      if c = '\n' ∨ lexeme.keeps index then c else ' ' := by
  cases lexeme.keeps index <;> simp [Glyph.blanked]

theorem length_glyphs (lexeme : Lexeme) : lexeme.glyphs.length = lexeme.raw.length := by
  rw [← map_raw_glyphs, List.length_map]

theorem length_flatMap_glyphs (lexemes : List Lexeme) :
    (lexemes.flatMap glyphs).length = (lexemes.flatMap raw).length := by
  simp only [List.length_flatMap, length_glyphs]

/-- A character of one lexeme in the midst of others. -/
theorem getElem?_flatMap_glyphs
    {lexeme : Lexeme} {index : Nat}
    (before after : List Lexeme)
    (inside : index < lexeme.raw.length) :
    ((before ++ lexeme :: after).flatMap glyphs)[(before.flatMap raw).length + index]? =
      lexeme.glyphs[index]? := by
  rw [List.flatMap_append, List.flatMap_cons, ← length_flatMap_glyphs,
    List.getElem?_append_right (Nat.le_add_right _ _), Nat.add_sub_cancel_left,
    List.getElem?_append_left (by rwa [length_glyphs])]

/-- The skeleton of a row of lexemes is the text that keeps what it has to keep and has
spaces elsewhere. -/
theorem map_shown_eq_iff_blanks {lexemes : List Lexeme} {shown : List Char} :
    (lexemes.flatMap glyphs).map Glyph.shown = shown ↔ Blanks lexemes shown := by
  constructor
  · rintro rfl
    refine ⟨by rw [List.length_map, length_flatMap_glyphs], ?_⟩
    rintro before lexeme after index c rfl here
    have inside : index < lexeme.raw.length := (List.getElem?_eq_some_iff.1 here).1
    rw [List.getElem?_map, getElem?_flatMap_glyphs before after inside, getElem?_glyphs, here,
      Option.map_some, Option.map_some, shown_of_keeps]
  · intro blanks
    apply List.ext_getElem?
    intro index
    by_cases inside : index < (lexemes.flatMap glyphs).length
    · obtain ⟨before, lexeme, after, rfl, -, lower, upper⟩ :=
        exists_at (List.getElem?_eq_getElem inside)
      obtain ⟨offset, rfl⟩ := Nat.exists_eq_add_of_le lower
      have within : offset < lexeme.raw.length := by omega
      have here := List.getElem?_eq_getElem within
      rw [blanks.getElem?_eq before lexeme after offset _ rfl here, List.getElem?_map,
        getElem?_flatMap_glyphs before after within, getElem?_glyphs, here, Option.map_some,
        Option.map_some, shown_of_keeps]
    · have length := blanks.length_eq
      rw [← length_flatMap_glyphs] at length
      rw [List.getElem?_eq_none (by simpa using inside), List.getElem?_eq_none (by omega)]

/-! ## What never closes -/

theorem splitBlock_eq_none_iff {text : List Char} :
    splitBlock text = none ↔ ¬ ['*', '/'] <:+: text := by
  constructor
  · intro missing held
    fun_induction splitBlock text with
    | case1 => simp at held
    | case2 rest => cases missing
    | case3 c rest notEnd ih =>
      rcases List.infix_cons_iff.1 held with atStart | later
      · obtain ⟨tail, whole⟩ := atStart
        obtain ⟨starEq, restEq⟩ := List.cons.inj whole
        exact notEnd tail starEq.symm restEq.symm
      · exact ih (Option.map_eq_none_iff.1 missing) later
  · intro neverEnds
    rw [Option.eq_none_iff_forall_ne_some]
    rintro ⟨body, after⟩ found
    apply neverEnds
    rw [eq_append_of_splitBlock found]
    exact ⟨body, after, by simp⟩

theorem splitLiteral_eq_none_iff {quote : Char} {text : List Char} (opens : IsQuote quote) :
    splitLiteral quote text = none ↔
      ∀ body after, LiteralBody quote body → text ≠ body ++ quote :: after := by
  rw [Option.eq_none_iff_forall_ne_some]
  constructor
  · rintro missing body after inside rfl
    exact missing (body, after) (splitLiteral_append opens inside)
  · rintro neverEnds ⟨body, after⟩ found
    exact neverEnds body after (literalBody_of_splitLiteral found)
      (eq_append_of_splitLiteral found)

/-- The first lexeme of a text is missing exactly if the text opens a comment or
a literal that never closes. -/
theorem next_eq_error_iff {c : Char} {rest : List Char} {fault : ParseFault} :
    next c rest = .error fault ↔ Unclosed (c :: rest) fault := by
  constructor
  · intro failed
    unfold next at failed
    split at failed
    · next slash =>
      subst slash
      split at failed
      · cases failed
      · split at failed
        · cases failed
        · next missing =>
          cases failed
          exact .comment (splitBlock_eq_none_iff.1 missing)
      · cases failed
    · split at failed
      · next opens =>
        split at failed
        · cases failed
        · next missing =>
          cases failed
          exact .literal opens ((splitLiteral_eq_none_iff opens).1 missing)
      · cases failed
  · intro unclosed
    cases unclosed with
    | comment neverEnds =>
      rw [← splitBlock_eq_none_iff] at neverEnds
      simp [next, neverEnds]
    | literal opens neverEnds =>
      rw [← splitLiteral_eq_none_iff opens] at neverEnds
      have notSlash : c ≠ '/' := by
        rcases opens with rfl | rfl <;> decide
      have isQuote : c = '"' ∨ c = '\'' := opens
      simp only [next, if_neg notSlash, if_pos isQuote, neverEnds]

/-- A text is not read exactly if it begins with a row of lexemes behind which one opens
that never closes. -/
theorem readFrom_eq_error_iff
    {position : Position} {before : List Lexeme} {text : List Char} {error : ParseError} :
    readFrom position before text = .error error ↔
      ∃ front rest fault, text = front.flatMap raw ++ rest ∧ Row front rest.head? ∧
        Unclosed rest fault ∧
          error = ⟨fault, (position.advanceBy (front.flatMap raw)).line⟩ := by
  constructor
  · intro failed
    fun_induction readFrom position before text with
    | case1 => cases failed
    | case2 position before c rest fault missing =>
      cases failed
      exact ⟨[], c :: rest, fault, rfl, trivial, next_eq_error_iff.1 missing, rfl⟩
    | case3 position before c rest lexeme after first ih =>
      obtain ⟨front, rest, fault, rfl, row, unclosed, rfl⟩ := ih failed
      obtain ⟨wellFormed, stands⟩ := wellFormed_before_of_next first
      rw [List.head?_append] at stands
      refine ⟨lexeme :: front, rest, fault, ?_, ⟨wellFormed, stands, row⟩, unclosed, ?_⟩
      · rw [List.flatMap_cons, List.append_assoc, raw_append_of_next first]
      · rw [List.flatMap_cons, Position.advanceBy_append]
  · rintro ⟨front, rest, fault, rfl, row, unclosed, rfl⟩
    rw [readFrom_append row]
    cases rest with
    | nil => cases unclosed
    | cons c rest => exact readFrom_cons_of_error (next_eq_error_iff.2 unclosed)

end Lexeme

/-- The scan of a text is exact.  A text has a skeleton exactly if it is a row of
lexemes, and the skeleton is what the row shows.  Otherwise the text is a row of lexemes
before a comment or a literal that never closes; the error says which and names the line on
which it opens. -/
theorem skeleton_exact (source : List Char) :
    (∀ shown, skeleton source = .ok shown ↔
      ∃ lexemes, lexemes.flatMap Lexeme.raw = source ∧ Lexeme.Row lexemes none ∧
        Lexeme.Blanks lexemes shown) ∧
    (∀ error, skeleton source = .error error ↔
      ∃ front rest fault, source = front.flatMap Lexeme.raw ++ rest ∧
        Lexeme.Row front rest.head? ∧ Lexeme.Unclosed rest fault ∧
          error = ⟨fault, 1 + (front.flatMap Lexeme.raw).count '\n'⟩) ∧
    ParseFault.unterminatedComment.description = "Unterminated comment" ∧
    ParseFault.unterminatedString.description = "Unterminated string" := by
  refine ⟨?_, ?_, rfl, rfl⟩
  · intro shown
    constructor
    · intro blanked
      obtain ⟨found, read, rfl⟩ := skeleton_eq_ok_iff.1 blanked
      obtain ⟨lexemes, reading, rfl⟩ := glyphs_eq_ok_iff.1 read
      obtain ⟨whole, row⟩ := Lexeme.read_eq_ok_iff.1 reading
      exact ⟨lexemes, whole, row, Lexeme.map_shown_eq_iff_blanks.1 rfl⟩
    · rintro ⟨lexemes, whole, row, blanks⟩
      have reading := Lexeme.read_eq_ok_iff.2 ⟨whole, row⟩
      exact skeleton_eq_ok_iff.2
        ⟨_, glyphs_eq_ok_iff.2 ⟨lexemes, reading, rfl⟩, Lexeme.map_shown_eq_iff_blanks.2 blanks⟩
  · intro error
    have same : skeleton source = .error error ↔ Lexeme.read source = .error error := by
      unfold skeleton glyphs
      cases Lexeme.read source with
      | error found =>
        constructor
        · rintro ⟨⟩
          rfl
        · rintro ⟨⟩
          rfl
      | ok lexemes => exact ⟨nofun, nofun⟩
    rw [same, Lexeme.read, Lexeme.readFrom_eq_error_iff]
    simp only [Position.line_advanceBy]
    rfl

/-- The end marker of a comment does not share its star with the start marker. -/
example : skeleton "\n/*/".toList = .error ⟨.unterminatedComment, 2⟩ := by
  decide +kernel

/-- A backslash hides the quote behind it. -/
example : skeleton "x'a\\'".toList = .error ⟨.unterminatedString, 1⟩ := by
  decide +kernel

end ContractDoc
