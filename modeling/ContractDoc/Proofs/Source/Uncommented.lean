import ContractDoc.Proofs.Source.Cut
import ContractDoc.Proofs.Source.Lexeme

/-!
# Texts without comments

A text in which each comment is exchanged for white space of its length, with its line
feeds, has the lexemes of the original outside of comments, and the same skeleton.  It is
cut into items at the same places; no item begins or ends inside a comment.

The two texts of an item are related by `Blanked`.  As a comment begins with a slash and is
blanked to its end, counting slashes tells whether there is one.
-/

namespace ContractDoc

open Text

/-- A character of a comment that has been blanked. -/
def blank (c : Char) : Char :=
  if c = '\n' then c else ' '

theorem isSpace_blank (c : Char) : isSpace (blank c) = true := by
  unfold blank
  split
  · next lineFeed =>
    rw [lineFeed]
    rfl
  · rfl

theorem blank_ne {c : Char} (visible : isSpace c = false) (d : Char) : blank d ≠ c := by
  rintro rfl
  rw [isSpace_blank] at visible
  cases visible

namespace Lexeme

/-- The text of a lexeme, in which a comment has been blanked. -/
def uncommented : Lexeme → List Char
  | lineComment body => (lineComment body).raw.map blank
  | blockComment body => (blockComment body).raw.map blank
  | literal quote body => (literal quote body).raw
  | code c => (code c).raw

/-- The lexemes of a lexeme that has been blanked if it is a comment. -/
def replacement : Lexeme → List Lexeme
  | lineComment body => (lineComment body).raw.map fun c => code (blank c)
  | blockComment body => (blockComment body).raw.map fun c => code (blank c)
  | literal quote body => [literal quote body]
  | code c => [code c]

theorem flatMap_raw_replacement (lexeme : Lexeme) :
    lexeme.replacement.flatMap raw = lexeme.uncommented := by
  have singles (text : List Char) :
      (text.map fun c => code (blank c)).flatMap raw = text.map blank := by
    rw [List.flatMap_map]
    exact List.flatMap_pure_eq_map blank text
  cases lexeme with
  | lineComment body => exact singles _
  | blockComment body => exact singles _
  | literal quote body => simp [replacement, uncommented]
  | code c => simp [replacement, uncommented]

theorem flatMap_raw_flatMap_replacement (lexemes : List Lexeme) :
    (lexemes.flatMap replacement).flatMap raw = lexemes.flatMap uncommented := by
  rw [List.flatMap_assoc]
  exact List.flatMap_congr fun lexeme _ => flatMap_raw_replacement lexeme

/-- A text without comments begins like the text or with a space. -/
theorem head?_uncommented (lexemes : List Lexeme) :
    (lexemes.flatMap uncommented).head? = (lexemes.flatMap raw).head? ∨
      (lexemes.flatMap uncommented).head? = some ' ' := by
  rcases lexemes with _ | ⟨lexeme, lexemes⟩
  · exact .inl rfl
  · cases lexeme with
    | lineComment body => exact .inr rfl
    | blockComment body => exact .inr rfl
    | literal quote body => exact .inl rfl
    | code c => exact .inl rfl

theorem row_blanks (text : List Char) (following : Option Char) :
    Row (text.map fun c => code (blank c)) following := by
  induction text with
  | nil => trivial
  | cons c text ih =>
    refine ⟨?_, fun slash => absurd slash (blank_ne (by decide) c), ih⟩
    rintro (quote | quote)
    · exact blank_ne (by decide) c quote
    · exact blank_ne (by decide) c quote

/-- What stands before a text stands before the text without comments. -/
theorem Before.uncommented
    {lexeme : Lexeme} {lexemes : List Lexeme}
    (notComment : ¬ lexeme.IsComment)
    (stands : lexeme.Before (lexemes.flatMap raw).head?) :
    lexeme.Before (lexemes.flatMap Lexeme.uncommented).head? := by
  rcases head?_uncommented lexemes with same | space
  · rw [same]
    exact stands
  · rw [space]
    cases lexeme with
    | lineComment body => exact absurd trivial notComment
    | blockComment body => trivial
    | literal quote body => trivial
    | code c => exact fun _ => ⟨by decide, by decide⟩

/-- The lexemes without comments form a row. -/
theorem Row.replacement
    {lexemes : List Lexeme}
    (row : Row lexemes none) :
    Row (lexemes.flatMap Lexeme.replacement) none := by
  induction lexemes with
  | nil => trivial
  | cons lexeme lexemes ih =>
    obtain ⟨wellFormed, stands, row⟩ := row
    rw [Option.or_none] at stands
    rw [List.flatMap_cons, row_append]
    refine ⟨?_, ih row⟩
    rw [flatMap_raw_flatMap_replacement, Option.or_none]
    cases lexeme with
    | lineComment body => exact row_blanks _ _
    | blockComment body => exact row_blanks _ _
    | literal quote body => exact ⟨wellFormed, trivial, trivial⟩
    | code c => exact ⟨wellFormed, stands.uncommented id, trivial⟩

/-- A text without comments is read as the lexemes that are left and white space. -/
theorem read_uncommented
    {source : List Char} {lexemes : List Lexeme}
    (reading : read source = .ok lexemes) :
    read (lexemes.flatMap uncommented) = .ok (lexemes.flatMap replacement) := by
  obtain ⟨-, row⟩ := read_eq_ok_iff.1 reading
  exact read_eq_ok_iff.2 ⟨flatMap_raw_flatMap_replacement lexemes, row.replacement⟩

end Lexeme

/-! ## The characters of the two texts -/

/-- The characters of a text, and those of the text without comments. -/
inductive Uncommented : List Glyph → List Glyph → Prop
  | nil : Uncommented [] []
  | keep (glyph : Glyph) {glyphs bares : List Glyph}
      (rest : Uncommented glyphs bares) :
      Uncommented (glyph :: glyphs) (glyph :: bares)
  | comment (body : List Char) {glyphs bares : List Glyph}
      (rest : Uncommented glyphs bares) :
      Uncommented
        (('/' :: body).map Glyph.blanked ++ glyphs)
        (('/' :: body).map (fun c => Glyph.kept (blank c)) ++ bares)

namespace Uncommented

variable {glyphs bares : List Glyph}

theorem keepAll
    (kept : List Glyph)
    (rest : Uncommented glyphs bares) :
    Uncommented (kept ++ glyphs) (kept ++ bares) := by
  induction kept with
  | nil => exact rest
  | cons glyph kept ih => exact ih.keep glyph

/-- The characters of a row of lexemes, and those without comments. -/
theorem ofLexemes (lexemes : List Lexeme) :
    Uncommented (lexemes.flatMap Lexeme.glyphs)
      ((lexemes.flatMap Lexeme.replacement).flatMap Lexeme.glyphs) := by
  have singles (text : List Char) :
      (text.map fun c => Lexeme.code (blank c)).flatMap Lexeme.glyphs =
        text.map fun c => Glyph.kept (blank c) := by
    rw [List.flatMap_map]
    exact List.flatMap_pure_eq_map (fun c => Glyph.kept (blank c)) text
  induction lexemes with
  | nil => exact .nil
  | cons lexeme lexemes ih =>
    rw [List.flatMap_cons, List.flatMap_cons, List.flatMap_append]
    cases lexeme with
    | lineComment body =>
      rw [Lexeme.replacement, singles]
      exact ih.comment _
    | blockComment body =>
      rw [Lexeme.replacement, singles]
      exact ih.comment _
    | literal quote body =>
      rw [Lexeme.replacement, List.flatMap_singleton]
      exact ih.keepAll _
    | code c =>
      rw [Lexeme.replacement, List.flatMap_singleton]
      exact ih.keepAll _

/-- The skeletons are the same. -/
theorem map_shown (uncommented : Uncommented glyphs bares) :
    bares.map Glyph.shown = glyphs.map Glyph.shown := by
  induction uncommented with
  | nil => rfl
  | keep glyph _ ih => rw [List.map_cons, List.map_cons, ih]
  | comment body _ ih =>
    rw [List.map_append, List.map_append, ih, List.map_map, List.map_map]
    rfl

theorem length_eq (uncommented : Uncommented glyphs bares) : bares.length = glyphs.length := by
  have shown := congrArg List.length uncommented.map_shown
  rwa [List.length_map, List.length_map] at shown

/-- Text that is divided at a visible character is divided outside of comments. -/
theorem split
    {front back : List Glyph}
    (uncommented : Uncommented glyphs bares)
    (whole : glyphs = front ++ back)
    (edge : (∀ glyph ∈ front.getLast?, isSpace glyph.shown = false) ∨
      ∀ glyph ∈ back.head?, isSpace glyph.shown = false) :
    ∃ bareFront bareBack, bares = bareFront ++ bareBack ∧
      Uncommented front bareFront ∧ Uncommented back bareBack := by
  induction uncommented generalizing front with
  | nil =>
    obtain ⟨rfl, rfl⟩ := List.append_eq_nil_iff.1 whole.symm
    exact ⟨[], [], rfl, .nil, .nil⟩
  | @keep glyph glyphs bares rest ih =>
    rcases front with _ | ⟨first, front⟩
    · rw [List.nil_append] at whole
      exact ⟨[], glyph :: bares, rfl, .nil, whole ▸ rest.keep glyph⟩
    · obtain ⟨rfl, glyphsEq⟩ := List.cons.inj whole
      have later : (∀ glyph ∈ front.getLast?, isSpace glyph.shown = false) ∨
          ∀ glyph ∈ back.head?, isSpace glyph.shown = false := by
        refine edge.imp_left fun visible last member => visible last ?_
        rw [List.getLast?_cons, member]
        rfl
      obtain ⟨bareFront, bareBack, rfl, inFront, inBack⟩ := ih glyphsEq later
      exact ⟨glyph :: bareFront, bareBack, rfl, inFront.keep glyph, inBack⟩
  | @comment body glyphs bares rest ih =>
    have hidden : ∀ glyph ∈ ('/' :: body).map Glyph.blanked, isSpace glyph.shown = true := by
      intro glyph member
      obtain ⟨c, -, rfl⟩ := List.mem_map.1 member
      exact isSpace_blank c
    rcases List.append_eq_append_iff.1 whole with ⟨more, rfl, glyphsEq⟩ | ⟨more, inside, rfl⟩
    · obtain ⟨bareFront, bareBack, rfl, inFront, inBack⟩ := ih glyphsEq <| by
        rcases edge with visible | visible
        · refine .inl fun last member => visible last ?_
          rw [List.getLast?_append, member]
          rfl
        · exact .inr visible
      exact ⟨_, bareBack, (List.append_assoc _ _ _).symm, inFront.comment body, inBack⟩
    · rcases List.eq_nil_or_concat front with rfl | ⟨front, last, rfl⟩
      · refine ⟨[], _, rfl, .nil, ?_⟩
        rw [List.nil_append] at inside
        rw [← inside]
        exact rest.comment body
      · rcases more with _ | ⟨first, more⟩
        · rw [List.append_nil] at inside
          rw [← inside, List.nil_append]
          refine ⟨_, bares, rfl, ?_, rest⟩
          have alone := Uncommented.nil.comment body
          rwa [List.append_nil, List.append_nil] at alone
        · rcases edge with visible | visible
          · have space := hidden last (by rw [inside]; simp)
            rw [visible last (by simp)] at space
            cases space
          · have space := hidden first (by rw [inside]; simp)
            rw [visible first rfl] at space
            cases space

end Uncommented

/-- The last character of an item is visible. -/
theorem Draft.Completes.getLast?
    {draft : Draft} {glyphs : List Glyph}
    (completes : draft.Completes glyphs) :
    ∀ glyph ∈ glyphs.getLast?, isSpace glyph.shown = false := by
  induction completes with
  | @ends draft glyph unclosed _ ends =>
    intro last member
    obtain rfl : glyph = last := Option.some.inj member
    rcases ends.2 with semicolon | ⟨brace, -⟩
    · rw [semicolon]
      rfl
    · rw [brace]
      rfl
  | @goesOn draft glyph unclosed more _ _ rest ih =>
    intro last member
    obtain ⟨first, others, rfl⟩ := List.exists_cons_of_ne_nil rest.ne_nil
    rw [List.getLast?_cons_cons] at member
    exact ih last member

/-- Items of one length at one place of the two texts are related like the texts. -/
theorem Uncommented.of_partOf
    {position start : Position} {glyphs bares part barePart : List Glyph}
    (uncommented : Uncommented glyphs bares)
    (complete : Item.Complete ⟨start, part⟩)
    (partOf : PartOf position glyphs start part)
    (barePartOf : PartOf position bares start barePart)
    (length : barePart.length = part.length) :
    Uncommented part barePart := by
  obtain ⟨before, after, whole, startEq⟩ := partOf
  obtain ⟨bareBefore, bareAfter, bareWhole, bareStartEq⟩ := barePartOf
  have offsets := congrArg Position.offset (startEq.symm.trans bareStartEq)
  rw [Position.offset_advanceBy, Position.offset_advanceBy, List.length_map,
    List.length_map] at offsets
  obtain ⟨first, others, partEq⟩ := List.exists_cons_of_ne_nil complete.completes.ne_nil
  have starts : ∀ glyph ∈ (part ++ after).head?, isSpace glyph.shown = false := by
    rintro glyph head
    change part = _ at partEq
    rw [partEq] at head
    exact complete.starts glyph (by rw [partEq]; exact head)
  obtain ⟨front, back, rfl, inFront, inBack⟩ := uncommented.split whole (.inr starts)
  obtain ⟨rfl, rfl⟩ := List.append_inj bareWhole (by rw [inFront.length_eq]; omega)
  obtain ⟨middle, end_, split, inMiddle, -⟩ :=
    inBack.split rfl (.inl complete.completes.getLast?)
  obtain ⟨rfl, -⟩ := List.append_inj split (by rw [inMiddle.length_eq, length])
  exact inMiddle

/-! ## Texts -/

/-- A text, and the text with its comments blanked. -/
inductive Blanked : List Char → List Char → Prop
  | nil : Blanked [] []
  | keep (c : Char) {text bare : List Char}
      (rest : Blanked text bare) :
      Blanked (c :: text) (c :: bare)
  | comment (body : List Char) {text bare : List Char}
      (rest : Blanked text bare) :
      Blanked ('/' :: (body ++ text)) (' ' :: (body.map blank ++ bare))

theorem Uncommented.blanked
    {glyphs bares : List Glyph}
    (uncommented : Uncommented glyphs bares) :
    Blanked (glyphs.map Glyph.raw) (bares.map Glyph.raw) := by
  induction uncommented with
  | nil => exact .nil
  | keep glyph _ ih => exact ih.keep glyph.raw
  | comment body _ ih =>
    have text : (body.map Glyph.blanked).map Glyph.raw = body := by
      simp [Function.comp_def]
    have bare : (body.map fun c => Glyph.kept (blank c)).map Glyph.raw = body.map blank := by
      simp [Function.comp_def]
    rw [List.map_append, List.map_append, List.map_cons, List.map_cons, List.map_cons,
      List.map_cons, text, bare]
    exact ih.comment body

namespace Blanked

variable {text bare : List Char}

theorem count_map_blank
    {c : Char} (visible : isSpace c = false) (body : List Char) :
    (body.map blank).count c = 0 := by
  rw [List.count_eq_zero]
  intro member
  obtain ⟨d, -, same⟩ := List.mem_map.1 member
  exact blank_ne visible d same

/-- Blanking adds no visible characters. -/
theorem count_le
    {c : Char}
    (blanked : Blanked text bare)
    (visible : isSpace c = false) :
    bare.count c ≤ text.count c := by
  induction blanked with
  | nil => exact Nat.le_refl _
  | keep d _ ih =>
    rw [List.count_cons, List.count_cons]
    exact Nat.add_le_add_right ih _
  | comment body _ ih =>
    have notSpace : ' ' ≠ c := by
      rintro rfl
      cases visible
    rw [List.count_cons_of_ne notSpace, List.count_append, count_map_blank visible,
      List.count_cons, List.count_append]
    omega

/-- A text with as many slashes as before has no comments. -/
theorem eq_of_count_eq
    (blanked : Blanked text bare)
    (same : bare.count '/' = text.count '/') :
    bare = text := by
  induction blanked with
  | nil => rfl
  | keep c _ ih =>
    rw [List.count_cons, List.count_cons] at same
    rw [ih (Nat.add_right_cancel same)]
  | comment body rest _ =>
    have fewer := rest.count_le (by decide : isSpace '/' = false)
    rw [List.count_cons_of_ne (by decide), List.count_append, count_map_blank (by decide),
      List.count_cons_self, List.count_append] at same
    omega

/-- Text before the first slash stays. -/
theorem exists_append
    {front back : List Char}
    (blanked : Blanked (front ++ back) bare)
    (noSlash : '/' ∉ front) :
    ∃ rest, bare = front ++ rest ∧ Blanked back rest := by
  induction front generalizing bare with
  | nil => exact ⟨bare, rfl, blanked⟩
  | cons c front ih =>
    rw [List.mem_cons, not_or] at noSlash
    generalize whole : c :: front ++ back = text at blanked
    cases blanked with
    | nil => cases whole
    | keep d rest =>
      obtain ⟨rfl, rfl⟩ := List.cons.inj whole
      obtain ⟨later, rfl, blanked⟩ := ih rest noSlash.2
      exact ⟨later, rfl, blanked⟩
    | comment body rest => exact absurd (List.cons.inj whole).1.symm noSlash.1

/-- If no visible character of a kind is lost, then the texts before and behind the first
one are blanked separately. -/
theorem takeWhile_dropWhile
    {c : Char}
    (blanked : Blanked text bare)
    (visible : isSpace c = false)
    (notSlash : c ≠ '/')
    (same : bare.count c = text.count c) :
    Blanked (text.takeWhile (· != c)) (bare.takeWhile (· != c)) ∧
      Blanked (text.dropWhile (· != c)) (bare.dropWhile (· != c)) := by
  induction blanked with
  | nil => exact ⟨.nil, .nil⟩
  | @keep d text bare rest ih =>
    rw [List.count_cons, List.count_cons] at same
    obtain ⟨front, back⟩ := ih (Nat.add_right_cancel same)
    by_cases found : d = c
    · simp only [found, bne_self_eq_false, Bool.false_eq_true, not_false_eq_true,
        List.takeWhile_cons_of_neg, List.dropWhile_cons_of_neg]
      exact ⟨.nil, rest.keep c⟩
    · simp only [bne_iff_ne.2 found, List.takeWhile_cons_of_pos, List.dropWhile_cons_of_pos]
      exact ⟨front.keep d, back⟩
  | @comment body text bare rest ih =>
    have notSpace : ' ' ≠ c := by
      rintro rfl
      cases visible
    have fewer := rest.count_le visible
    rw [List.count_cons_of_ne notSpace, List.count_append, count_map_blank visible,
      List.count_cons_of_ne notSlash.symm, List.count_append] at same
    obtain ⟨front, back⟩ := ih (by omega)
    have inside : ∀ d ∈ '/' :: body, (d != c) = true := by
      have absent : c ∉ body := List.count_eq_zero.1 (by omega)
      intro d member
      rcases List.mem_cons.1 member with rfl | member
      · exact bne_iff_ne.2 notSlash.symm
      · exact bne_iff_ne.2 (ne_of_mem_of_not_mem member absent)
    have bareInside : ∀ d ∈ ' ' :: body.map blank, (d != c) = true := by
      have absent : c ∉ body.map blank := List.count_eq_zero.1 (count_map_blank visible body)
      intro d member
      rcases List.mem_cons.1 member with rfl | member
      · exact bne_iff_ne.2 notSpace
      · exact bne_iff_ne.2 (ne_of_mem_of_not_mem member absent)
    rw [← List.cons_append, ← List.cons_append, List.takeWhile_append_of_pos inside,
      List.takeWhile_append_of_pos bareInside, List.dropWhile_append_of_pos inside,
      List.dropWhile_append_of_pos bareInside]
    exact ⟨front.comment body, back⟩

end Blanked

end ContractDoc
