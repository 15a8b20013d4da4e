import ContractDoc.Source.Error

/-!
# Lexemes

A source text is a sequence of comments, string literals and single characters
of code.  Blanking the comments and the contents of the literals gives a text
of the same length, the skeleton, in which only code is left to look at.
-/

namespace ContractDoc

/-- One unit of a source text. -/
inductive Lexeme where
  /-- A comment that runs to the end of its line. -/
  | lineComment (body : List Char)
  /-- A comment between its two markers. -/
  | blockComment (body : List Char)
  /-- A string literal between two quotes. -/
  | literal (quote : Char) (body : List Char)
  /-- A character that opens none of the others. -/
  | code (c : Char)
  deriving DecidableEq, Repr

/-- A character as it stands in the source and as it stands in the skeleton. -/
structure Glyph where
  raw : Char
  shown : Char
  deriving DecidableEq, Repr

namespace Glyph

/-- A character that is kept in the skeleton. -/
def kept (c : Char) : Glyph := ⟨c, c⟩

/-- A character that the skeleton hides: only line feeds stay. -/
def blanked (c : Char) : Glyph := ⟨c, if c = '\n' then c else ' '⟩

@[simp] theorem raw_kept (c : Char) : (kept c).raw = c := rfl

@[simp] theorem raw_blanked (c : Char) : (blanked c).raw = c := rfl

@[simp] theorem shown_kept (c : Char) : (kept c).shown = c := rfl

end Glyph

namespace Lexeme

/-- The text of a lexeme. -/
def raw : Lexeme → List Char
  | lineComment body => '/' :: '/' :: body
  | blockComment body => '/' :: '*' :: (body ++ ['*', '/'])
  | literal quote body => quote :: (body ++ [quote])
  | code c => [c]

/-- The characters of a lexeme.  A comment is hidden whole, a literal keeps its
quotes. -/
def glyphs : Lexeme → List Glyph
  | lineComment body => ('/' :: '/' :: body).map Glyph.blanked
  | blockComment body => ('/' :: '*' :: (body ++ ['*', '/'])).map Glyph.blanked
  | literal quote body =>
      Glyph.kept quote :: (body.map Glyph.blanked ++ [Glyph.kept quote])
  | code c => [Glyph.kept c]

theorem map_raw_glyphs (lexeme : Lexeme) :
    lexeme.glyphs.map Glyph.raw = lexeme.raw := by
  cases lexeme <;> simp [glyphs, raw, Function.comp_def]

/-- The text before the first end marker of a block comment and the text after
it. -/
def splitBlock : List Char → Option (List Char × List Char)
  | [] => none
  | '*' :: '/' :: rest => some ([], rest)
  | c :: rest => (splitBlock rest).map fun (body, after) => (c :: body, after)

/-- The text before the closing quote of a literal and the text after it.  A
backslash hides the character behind it, and a bare line feed ends the search. -/
def splitLiteral (quote : Char) : List Char → Option (List Char × List Char)
  | [] => none
  | c :: rest =>
      if c = quote then some ([], rest)
      else if c = '\n' then none
      else if c = '\\' then
        match rest with
        | [] => none
        | escaped :: rest =>
            (splitLiteral quote rest).map fun (body, after) =>
              (c :: escaped :: body, after)
      else (splitLiteral quote rest).map fun (body, after) => (c :: body, after)

/-- The first lexeme of a text that starts with `c`, and what follows it. -/
def next (c : Char) (rest : List Char) : Except ParseFault (Lexeme × List Char) :=
  if c = '/' then
    match rest with
    | '/' :: rest =>
        .ok (lineComment (rest.takeWhile (· != '\n')), rest.dropWhile (· != '\n'))
    | '*' :: rest =>
        match splitBlock rest with
        | some (body, after) => .ok (blockComment body, after)
        | none => .error .unterminatedComment
    | rest => .ok (code c, rest)
  else if c = '"' ∨ c = '\'' then
    match splitLiteral c rest with
    | some (body, after) => .ok (literal c body, after)
    | none => .error .unterminatedString
  else .ok (code c, rest)

theorem eq_append_of_splitBlock {text body after : List Char}
    (split : splitBlock text = some (body, after)) :
    text = body ++ '*' :: '/' :: after := by
  fun_induction splitBlock text generalizing body with
  | case1 => simp at split
  | case2 rest => simp_all
  | case3 c rest _ ih =>
    obtain ⟨⟨front, back⟩, found, same⟩ := Option.map_eq_some_iff.1 split
    obtain ⟨rfl, rfl⟩ := Prod.mk.injEq _ _ _ _ ▸ same
    simp [← ih found]

theorem eq_append_of_splitLiteral {quote : Char} {text body after : List Char}
    (split : splitLiteral quote text = some (body, after)) :
    text = body ++ quote :: after := by
  fun_induction splitLiteral quote text generalizing body with
  | case1 => simp at split
  | case2 rest => simp_all
  | case3 => simp at split
  | case4 => simp at split
  | case5 escaped rest _ _ ih =>
    obtain ⟨⟨front, back⟩, found, same⟩ := Option.map_eq_some_iff.1 split
    obtain ⟨rfl, rfl⟩ := Prod.mk.injEq _ _ _ _ ▸ same
    simp [← ih found]
  | case6 c rest _ _ _ ih =>
    obtain ⟨⟨front, back⟩, found, same⟩ := Option.map_eq_some_iff.1 split
    obtain ⟨rfl, rfl⟩ := Prod.mk.injEq _ _ _ _ ▸ same
    simp [← ih found]

/-- The first lexeme and what follows it make up the whole text. -/
theorem raw_append_of_next {c : Char} {rest after : List Char} {lexeme : Lexeme}
    (first : next c rest = .ok (lexeme, after)) :
    lexeme.raw ++ after = c :: rest := by
  unfold next at first
  split at first
  · split at first
    · cases first
      simp_all [raw]
    · split at first
      · next found =>
        cases first
        simp [raw, eq_append_of_splitBlock found, *]
      · cases first
    · cases first
      rfl
  · split at first
    · split at first
      · next found =>
        cases first
        simp [raw, eq_append_of_splitLiteral found]
      · cases first
    · cases first
      rfl

theorem raw_ne_nil (lexeme : Lexeme) : lexeme.raw ≠ [] := by
  cases lexeme <;> simp [raw]

theorem length_lt_of_next {c : Char} {rest after : List Char} {lexeme : Lexeme}
    (first : next c rest = .ok (lexeme, after)) :
    after.length < (c :: rest).length := by
  have whole := congrArg List.length (raw_append_of_next first)
  have nonempty := List.length_pos_iff.2 lexeme.raw_ne_nil
  simp only [List.length_append] at whole
  omega

/-- The lexemes of a text that starts at `position`, behind those of `before`,
which are given last first. -/
def readFrom (position : Position) (before : List Lexeme) :
    List Char → Except ParseError (List Lexeme)
  | [] => .ok before.reverse
  | c :: rest =>
      match _ : next c rest with
      | .error fault => .error ⟨fault, position.line⟩
      | .ok (lexeme, after) =>
          readFrom (position.advanceBy lexeme.raw) (lexeme :: before) after
termination_by text => text.length
decreasing_by exact length_lt_of_next (by assumption)

/-- The lexemes of a source text. -/
def read (source : List Char) : Except ParseError (List Lexeme) :=
  readFrom .origin [] source

end Lexeme

/-- The characters of a source text beside those of its skeleton. -/
def glyphs (source : List Char) : Except ParseError (List Glyph) := do
  return (← Lexeme.read source).flatMap Lexeme.glyphs

/-- The source text with comments and the contents of literals blanked. -/
def skeleton (source : List Char) : Except ParseError (List Char) := do
  return (← glyphs source).map Glyph.shown

end ContractDoc
