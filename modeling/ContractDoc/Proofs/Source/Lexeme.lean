import ContractDoc.Proofs.Outcome
import ContractDoc.Source.Lexeme
import ContractDoc.Text.Space
import Mathlib.Data.List.TakeWhile

/-!
# The grammar of lexemes

Which rows of lexemes a text is read as.  A lexeme is well formed by itself and
may stand only before certain characters.  A text is read as a row of lexemes
exactly if it is their text and each of them is well formed and stands before
what follows it; a row is read the same way whatever text it continues.
-/

namespace ContractDoc
namespace Lexeme

/-- The text between two quotes: characters other than the quote, line feeds and
backslashes, and backslashes with any one character behind each. -/
inductive LiteralBody (quote : Char) : List Char → Prop
  | nil : LiteralBody quote []
  | plain {c : Char} {body : List Char}
      (notQuote : c ≠ quote)
      (notLineFeed : c ≠ '\n')
      (notBackslash : c ≠ '\\')
      (rest : LiteralBody quote body) :
      LiteralBody quote (c :: body)
  | escaped {c : Char} {body : List Char}
      (rest : LiteralBody quote body) :
      LiteralBody quote ('\\' :: c :: body)

/-- The two characters that open literals. -/
def IsQuote (c : Char) : Prop :=
  c = '"' ∨ c = '\''

/-- A comment does not hold its own end, a literal is closed by its quote, and a
character of code opens no literal. -/
def WellFormed : Lexeme → Prop
  | lineComment body => '\n' ∉ body
  | blockComment body => ¬ ['*', '/'] <:+: body ++ ['*']
  | literal quote body => IsQuote quote ∧ LiteralBody quote body
  | code c => ¬ IsQuote c

/-- Before which character a lexeme may stand; `none` is the end of the text.  A
line comment runs to the end of its line, and a slash of code opens no comment. -/
def Before : Lexeme → Option Char → Prop
  | lineComment _, following => ∀ c ∈ following, c = '\n'
  | blockComment _, _ => True
  | literal _ _, _ => True
  | code c, following => c = '/' → following ≠ some '/' ∧ following ≠ some '*'

/-- Well-formed lexemes, each before what follows it.  The last one stands before
`following`. -/
def Row : List Lexeme → Option Char → Prop
  | [], _ => True
  | lexeme :: rest, following =>
      lexeme.WellFormed ∧
        lexeme.Before ((rest.flatMap raw).head?.or following) ∧
          Row rest following

/-! ## The parts of a comment and of a literal -/

theorem splitBlock_cons
    {c : Char} {rest : List Char}
    (notEnd : ¬ (c = '*' ∧ rest.head? = some '/')) :
    splitBlock (c :: rest) =
      (splitBlock rest).map fun (body, after) => (c :: body, after) := by
  rw [splitBlock]
  intro tail starEq restEq
  exact notEnd ⟨starEq, by rw [restEq]; rfl⟩

/-- The end marker is found behind a text that does not hold it. -/
theorem splitBlock_append
    {body after : List Char}
    (unended : ¬ ['*', '/'] <:+: body ++ ['*']) :
    splitBlock (body ++ '*' :: '/' :: after) = some (body, after) := by
  induction body with
  | nil => rfl
  | cons c rest ih =>
    have restUnended : ¬ ['*', '/'] <:+: rest ++ ['*'] := by
      intro held
      exact unended (held.trans (List.suffix_cons c _).isInfix)
    have notEnd : ¬ (c = '*' ∧ (rest ++ '*' :: '/' :: after).head? = some '/') := by
      rintro ⟨rfl, slash⟩
      cases rest with
      | nil => simp at slash
      | cons d rest =>
        simp only [List.cons_append, List.head?_cons, Option.some.injEq] at slash
        subst slash
        exact unended (List.IsPrefix.isInfix ⟨rest ++ ['*'], rfl⟩)
    rw [List.cons_append, splitBlock_cons notEnd, ih restUnended]
    rfl

/-- The end marker is the first one.  The search stops where the marker starts. -/
theorem not_infix_of_splitBlock
    {text body after : List Char}
    (split : splitBlock text = some (body, after)) :
    ¬ ['*', '/'] <:+: body ++ ['*'] := by
  fun_induction splitBlock text generalizing body with
  | case1 => cases split
  | case2 rest =>
    cases split
    intro held
    have := held.length_le
    simp at this
  | case3 c rest notEnd ih =>
    obtain ⟨⟨front, back⟩, found, same⟩ := Option.map_eq_some_iff.1 split
    obtain ⟨rfl, rfl⟩ := Prod.mk.injEq _ _ _ _ ▸ same
    intro held
    rcases List.infix_cons_iff.1 held with atStart | later
    · obtain ⟨starEq, slash⟩ := List.cons_prefix_cons.1 atStart
      have restEq := eq_append_of_splitBlock found
      cases front with
      | nil => simp at slash
      | cons d front =>
        obtain ⟨slashEq, -⟩ := List.cons_prefix_cons.1 slash
        subst slashEq
        exact notEnd _ starEq.symm restEq
    · exact ih found later

/-- The closing quote is found behind the text of a literal. -/
theorem splitLiteral_append
    {quote : Char} {body after : List Char}
    (quoteOk : IsQuote quote)
    (inside : LiteralBody quote body) :
    splitLiteral quote (body ++ quote :: after) = some (body, after) := by
  induction inside with
  | nil =>
    rw [List.nil_append, splitLiteral.eq_def]
    simp
  | plain notQuote notLineFeed notBackslash _ ih =>
    rw [List.cons_append, splitLiteral.eq_def]
    simp [notQuote, notLineFeed, notBackslash, ih]
  | escaped _ ih =>
    have notQuote : '\\' ≠ quote := by
      rcases quoteOk with rfl | rfl <;> decide
    rw [List.cons_append, List.cons_append, splitLiteral.eq_def]
    simp [notQuote, ih]

theorem literalBody_of_splitLiteral
    {quote : Char} {text body after : List Char}
    (split : splitLiteral quote text = some (body, after)) :
    LiteralBody quote body := by
  fun_induction splitLiteral quote text generalizing body with
  | case1 => cases split
  | case2 rest =>
    cases split
    exact .nil
  | case3 => cases split
  | case4 => cases split
  | case5 escaped rest _ _ ih =>
    obtain ⟨⟨front, back⟩, found, same⟩ := Option.map_eq_some_iff.1 split
    obtain ⟨rfl, rfl⟩ := Prod.mk.injEq _ _ _ _ ▸ same
    exact .escaped (ih found)
  | case6 c rest notQuote notLineFeed notBackslash ih =>
    obtain ⟨⟨front, back⟩, found, same⟩ := Option.map_eq_some_iff.1 split
    obtain ⟨rfl, rfl⟩ := Prod.mk.injEq _ _ _ _ ▸ same
    exact .plain notQuote notLineFeed notBackslash (ih found)

/-! ## The first lexeme -/

/-- The first lexeme of a text is well formed and stands before the rest. -/
theorem wellFormed_before_of_next
    {c : Char} {rest after : List Char} {lexeme : Lexeme}
    (first : next c rest = .ok (lexeme, after)) :
    lexeme.WellFormed ∧ lexeme.Before after.head? := by
  unfold next at first
  split at first
  · next slash =>
    split at first
    · next body =>
      cases first
      refine ⟨?_, ?_⟩
      · intro held
        simpa using List.mem_takeWhile_imp held
      · intro d head
        have stops := List.head?_dropWhile_not (· != '\n') body
        rw [head] at stops
        simpa using stops
    · split at first
      · next found =>
        cases first
        exact ⟨not_infix_of_splitBlock found, trivial⟩
      · cases first
    · next notLine notBlock =>
      cases first
      refine ⟨?_, ?_⟩
      · rw [slash]
        rintro (quote | quote) <;> cases quote
      · rintro -
        cases rest with
        | nil => simp
        | cons d rest =>
          constructor
          · rintro ⟨⟩
            exact notLine rest rfl
          · rintro ⟨⟩
            exact notBlock rest rfl
  · next notSlash =>
    split at first
    · next quoteOk =>
      split at first
      · next found =>
        cases first
        exact ⟨⟨quoteOk, literalBody_of_splitLiteral found⟩, trivial⟩
      · cases first
    · next notQuote =>
      cases first
      exact ⟨notQuote, fun slash => absurd slash notSlash⟩

/-- A well-formed lexeme is the first one of every text that continues it with a
character before which it may stand. -/
theorem next_of_raw_append
    {lexeme : Lexeme} {c : Char} {rest after : List Char}
    (wellFormed : lexeme.WellFormed)
    (before : lexeme.Before after.head?)
    (whole : lexeme.raw ++ after = c :: rest) :
    next c rest = .ok (lexeme, after) := by
  cases lexeme with
  | lineComment body =>
    obtain ⟨rfl, rfl⟩ := List.cons.inj whole
    have inside : ∀ d ∈ body, (d != '\n') = true := by
      intro d held
      simpa using ne_of_mem_of_not_mem held wellFormed
    have stops :
        after.takeWhile (· != '\n') = [] ∧ after.dropWhile (· != '\n') = after := by
      cases after with
      | nil => exact ⟨rfl, rfl⟩
      | cons d after =>
        have lineFeed : d = '\n' := before d rfl
        simp [lineFeed]
    simp [next, List.takeWhile_append_of_pos inside, List.dropWhile_append_of_pos inside,
      stops]
  | blockComment body =>
    have restEq : rest = '*' :: (body ++ '*' :: '/' :: after) := by
      simpa [raw] using (List.cons.inj whole).2.symm
    obtain rfl : '/' = c := (List.cons.inj whole).1
    simp only [next, restEq, ↓reduceIte, splitBlock_append wellFormed]
  | literal quote body =>
    have restEq : rest = body ++ quote :: after := by
      simpa [raw] using (List.cons.inj whole).2.symm
    obtain rfl : quote = c := (List.cons.inj whole).1
    obtain ⟨quoteOk, inside⟩ := wellFormed
    have notSlash : quote ≠ '/' := by
      rcases quoteOk with rfl | rfl <;> decide
    have opens : quote = '"' ∨ quote = '\'' := quoteOk
    simp only [next, restEq, if_neg notSlash, if_pos opens, splitLiteral_append quoteOk inside]
  | code d =>
    obtain ⟨rfl, rfl⟩ := List.cons.inj whole
    have notQuote : ¬ (d = '"' ∨ d = '\'') := wellFormed
    by_cases slash : d = '/'
    · obtain ⟨notLine, notBlock⟩ := before slash
      unfold next
      rw [if_pos slash]
      split
      · next opensLine => exact absurd (congrArg List.head? opensLine) notLine
      · next opensBlock => exact absurd (congrArg List.head? opensBlock) notBlock
      · rfl
    · simp only [next, if_neg slash, if_neg notQuote]
      rfl

/-! ## Rows of lexemes -/

theorem readFrom_cons_of_ok
    {position : Position} {before : List Lexeme} {c : Char} {rest after : List Char}
    {lexeme : Lexeme}
    (first : next c rest = .ok (lexeme, after)) :
    readFrom position before (c :: rest) =
      readFrom (position.advanceBy lexeme.raw) (lexeme :: before) after := by
  rw [readFrom]
  split
  · next failed =>
    rw [first] at failed
    cases failed
  · next found =>
    rw [first] at found
    cases found
    rfl

theorem readFrom_cons_of_error
    {position : Position} {before : List Lexeme} {c : Char} {rest : List Char}
    {fault : ParseFault}
    (first : next c rest = .error fault) :
    readFrom position before (c :: rest) = .error ⟨fault, position.line⟩ := by
  rw [readFrom]
  split
  · next failed =>
    rw [first] at failed
    cases failed
    rfl
  · next found =>
    rw [first] at found
    cases found

theorem row_append
    {front back : List Lexeme} {following : Option Char} :
    Row (front ++ back) following ↔
      Row front ((back.flatMap raw).head?.or following) ∧ Row back following := by
  induction front with
  | nil => simp [Row]
  | cons lexeme front ih =>
    simp only [List.cons_append, Row, ih, List.flatMap_append, List.head?_append,
      Option.or_assoc, and_assoc]

/-- Every lexeme may stand before a line feed. -/
theorem before_lineFeed (lexeme : Lexeme) : lexeme.Before (some '\n') := by
  cases lexeme with
  | lineComment body =>
    rintro c ⟨⟩
    rfl
  | blockComment body => trivial
  | literal quote body => trivial
  | code c =>
    rintro -
    constructor <;> decide

/-- A line feed may follow every row. -/
theorem Row.lineFeed
    {lexemes : List Lexeme} {following : Option Char}
    (row : Row lexemes none) :
    Row (lexemes ++ [code '\n']) following := by
  rw [row_append]
  refine ⟨?_, ?_, fun slash => ?_, trivial⟩
  · induction lexemes with
    | nil => trivial
    | cons lexeme lexemes ih =>
      obtain ⟨wellFormed, stands, row⟩ := row
      refine ⟨wellFormed, ?_, ih row⟩
      cases head : (lexemes.flatMap raw).head? with
      | none => exact before_lineFeed lexeme
      | some c =>
        rw [head] at stands
        exact stands
  · rintro (quote | quote) <;> cases quote
  · cases slash

/-- The lexemes of a row are read one by one, whatever text they continue. -/
theorem readFrom_append
    {lexemes before : List Lexeme} {position : Position} {after : List Char}
    (row : Row lexemes after.head?) :
    readFrom position before (lexemes.flatMap raw ++ after) =
      readFrom (position.advanceBy (lexemes.flatMap raw)) (lexemes.reverse ++ before) after := by
  induction lexemes generalizing position before with
  | nil => rfl
  | cons lexeme lexemes ih =>
    obtain ⟨wellFormed, stands, row⟩ := row
    rw [← List.head?_append] at stands
    obtain ⟨c, rest, whole⟩ := List.exists_cons_of_ne_nil
      (List.append_ne_nil_of_left_ne_nil lexeme.raw_ne_nil (lexemes.flatMap raw ++ after))
    have first := next_of_raw_append wellFormed stands whole
    rw [List.flatMap_cons, List.append_assoc, whole, readFrom_cons_of_ok first, ih row,
      Position.advanceBy_append]
    simp

/-- What is read is a row, and its text is the text that was read. -/
theorem row_of_readFrom
    {position : Position} {before all : List Lexeme} {text : List Char}
    (reading : readFrom position before text = .ok all) :
    ∃ lexemes, all = before.reverse ++ lexemes ∧ lexemes.flatMap raw = text ∧
      Row lexemes none := by
  fun_induction readFrom position before text with
  | case1 =>
    cases reading
    exact ⟨[], by simp, rfl, trivial⟩
  | case2 => cases reading
  | case3 position before c rest lexeme after first ih =>
    obtain ⟨lexemes, rfl, rfl, row⟩ := ih reading
    obtain ⟨wellFormed, stands⟩ := wellFormed_before_of_next first
    refine ⟨lexeme :: lexemes, by simp, ?_, wellFormed, ?_, row⟩
    · rw [List.flatMap_cons]
      exact raw_append_of_next first
    · rw [Option.or_none]
      exact stands

/-- A text is read as the lexemes that make it up and form a row. -/
theorem read_eq_ok_iff
    {source : List Char} {lexemes : List Lexeme} :
    read source = .ok lexemes ↔ lexemes.flatMap raw = source ∧ Row lexemes none := by
  constructor
  · intro reading
    obtain ⟨found, same, whole, row⟩ := row_of_readFrom reading
    rw [List.reverse_nil, List.nil_append] at same
    exact same ▸ ⟨whole, row⟩
  · rintro ⟨rfl, row⟩
    have reading : read (lexemes.flatMap raw ++ []) = _ := readFrom_append row
    rw [List.append_nil] at reading
    rw [reading, readFrom]
    simp

/-! ## The characters of a lexeme -/

/-- The two kinds of comments. -/
def IsComment : Lexeme → Prop
  | lineComment _ => True
  | blockComment _ => True
  | literal _ _ => False
  | code _ => False

/-- Every character is hidden or, outside of comments, kept. -/
theorem blanked_or_kept
    {lexeme : Lexeme} {glyph : Glyph}
    (member : glyph ∈ lexeme.glyphs) :
    glyph = .blanked glyph.raw ∨ glyph = .kept glyph.raw ∧ ¬ lexeme.IsComment := by
  cases lexeme with
  | lineComment body =>
    obtain ⟨c, -, rfl⟩ := List.mem_map.1 member
    exact .inl rfl
  | blockComment body =>
    obtain ⟨c, -, rfl⟩ := List.mem_map.1 member
    exact .inl rfl
  | literal quote body =>
    simp only [glyphs, List.mem_cons, List.mem_append, List.mem_map, List.not_mem_nil,
      or_false] at member
    rcases member with rfl | ⟨c, -, rfl⟩ | rfl
    · exact .inr ⟨rfl, id⟩
    · exact .inl rfl
    · exact .inr ⟨rfl, id⟩
  | code c =>
    obtain rfl := List.mem_singleton.1 member
    exact .inr ⟨rfl, id⟩

/-- The skeleton keeps the line feeds of the source and has no others. -/
theorem raw_eq_lineFeed_iff
    {lexeme : Lexeme} {glyph : Glyph}
    (member : glyph ∈ lexeme.glyphs) :
    glyph.raw = '\n' ↔ glyph.shown = '\n' := by
  rcases blanked_or_kept member with hidden | ⟨kept, -⟩
  · rw [hidden]
    by_cases lineFeed : glyph.raw = '\n'
    · simp [Glyph.blanked, lineFeed]
    · simp [Glyph.blanked, lineFeed]
  · rw [kept]
    rfl

/-- What the skeleton shows, except for white space, stands in the source outside
of comments. -/
theorem raw_eq_shown_of_not_isSpace
    {lexeme : Lexeme} {glyph : Glyph}
    (member : glyph ∈ lexeme.glyphs)
    (visible : Text.isSpace glyph.shown = false) :
    glyph.raw = glyph.shown ∧ ¬ lexeme.IsComment := by
  rcases blanked_or_kept member with hidden | ⟨kept, outside⟩
  · rw [hidden] at visible
    unfold Glyph.blanked at visible
    split at visible
    · next lineFeed =>
      rw [lineFeed] at visible
      cases visible
    · cases visible
  · exact ⟨congrArg Glyph.shown kept.symm, outside⟩

/-- The lexeme that a character of a file belongs to. -/
theorem exists_at
    {lexemes : List Lexeme} {index : Nat} {glyph : Glyph}
    (here : (lexemes.flatMap glyphs)[index]? = some glyph) :
    ∃ before lexeme after,
      lexemes = before ++ lexeme :: after ∧ glyph ∈ lexeme.glyphs ∧
        (before.flatMap raw).length ≤ index ∧
          index < (before.flatMap raw).length + lexeme.raw.length := by
  induction lexemes generalizing index with
  | nil => cases here
  | cons first lexemes ih =>
    have length : first.glyphs.length = first.raw.length := by
      rw [← map_raw_glyphs, List.length_map]
    rw [List.flatMap_cons, List.getElem?_append] at here
    split at here
    · next inside =>
      refine ⟨[], first, lexemes, rfl, List.mem_of_getElem? here, Nat.zero_le _, ?_⟩
      simpa [length] using inside
    · next outside =>
      obtain ⟨before, lexeme, after, rfl, member, lower, upper⟩ := ih here
      refine ⟨first :: before, lexeme, after, rfl, member, ?_, ?_⟩
      · rw [List.flatMap_cons, List.length_append]
        omega
      · rw [List.flatMap_cons, List.length_append]
        omega

end Lexeme

theorem glyphs_eq_ok_iff
    {source : List Char} {found : List Glyph} :
    glyphs source = .ok found ↔
      ∃ lexemes, Lexeme.read source = .ok lexemes ∧ lexemes.flatMap Lexeme.glyphs = found := by
  rw [glyphs, bind_eq_ok]
  simp only [pure, Except.pure, Except.ok.injEq]

/-- The characters of a text in the source are the text. -/
theorem map_raw_of_glyphs
    {source : List Char} {found : List Glyph}
    (read : glyphs source = .ok found) :
    found.map Glyph.raw = source := by
  obtain ⟨lexemes, reading, rfl⟩ := glyphs_eq_ok_iff.1 read
  obtain ⟨rfl, -⟩ := Lexeme.read_eq_ok_iff.1 reading
  rw [List.map_flatMap]
  simp only [Lexeme.map_raw_glyphs]

/-- What the skeleton of a file shows, except for white space, stands in the file. -/
theorem raw_eq_shown_of_glyphs
    {source : List Char} {found : List Glyph} {glyph : Glyph}
    (read : glyphs source = .ok found)
    (member : glyph ∈ found)
    (visible : Text.isSpace glyph.shown = false) :
    glyph.raw = glyph.shown := by
  obtain ⟨lexemes, -, rfl⟩ := glyphs_eq_ok_iff.1 read
  obtain ⟨lexeme, -, member⟩ := List.mem_flatMap.1 member
  exact (Lexeme.raw_eq_shown_of_not_isSpace member visible).1

theorem getElem?_of_shown
    {source : List Char} {found : List Glyph} {index : Nat} {c : Char}
    (read : glyphs source = .ok found)
    (here : (found.map Glyph.shown)[index]? = some c)
    (visible : Text.isSpace c = false) :
    source[index]? = some c := by
  rw [List.getElem?_map] at here
  obtain ⟨glyph, found_eq, rfl⟩ := Option.map_eq_some_iff.1 here
  rw [← map_raw_of_glyphs read, List.getElem?_map, found_eq, Option.map_some,
    raw_eq_shown_of_glyphs read (List.mem_of_getElem? found_eq) visible]

theorem skeleton_eq_ok_iff
    {source shown : List Char} :
    skeleton source = .ok shown ↔
      ∃ found, glyphs source = .ok found ∧ found.map Glyph.shown = shown := by
  rw [skeleton, bind_eq_ok]
  simp only [pure, Except.pure, Except.ok.injEq]

end ContractDoc
