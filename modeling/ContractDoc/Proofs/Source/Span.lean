import ContractDoc.Proofs.Source.Lexeme

/-!
# Lexemes at their places

Every character of a text belongs to exactly one lexeme.  The lexeme and the place at
which it starts tell the character and how the skeleton shows it.
-/

namespace ContractDoc
namespace Lexeme

/-- A lexeme of a text starts at an offset. -/
def StartsAt (source : List Char) (start : Nat) (lexeme : Lexeme) : Prop :=
  ∃ before after,
    read source = .ok (before ++ lexeme :: after) ∧ (before.flatMap raw).length = start

/-- A lexeme that starts at an offset holds the character at an index. -/
structure Spans (source : List Char) (start : Nat) (lexeme : Lexeme) (index : Nat) :
    Prop where
  starts : lexeme.StartsAt source start
  lower : start ≤ index
  upper : index < start + lexeme.raw.length

/-- A comment of a text holds the character at an index. -/
def InComment (source : List Char) (index : Nat) : Prop :=
  ∃ start lexeme, Spans source start lexeme index ∧ lexeme.IsComment

variable {source : List Char} {start : Nat} {lexeme : Lexeme} {index : Nat}

namespace StartsAt

theorem wellFormed (starts : lexeme.StartsAt source start) : lexeme.WellFormed := by
  obtain ⟨before, after, reading, -⟩ := starts
  obtain ⟨-, row⟩ := read_eq_ok_iff.1 reading
  exact (row_append.1 row).2.1

/-- The text from the start of a lexeme on begins with the lexeme. -/
theorem exists_drop_eq (starts : lexeme.StartsAt source start) :
    ∃ rest, source.drop start = lexeme.raw ++ rest ∧ lexeme.Before rest.head? := by
  obtain ⟨before, after, reading, rfl⟩ := starts
  obtain ⟨rfl, row⟩ := read_eq_ok_iff.1 reading
  refine ⟨after.flatMap raw, ?_, ?_⟩
  · rw [List.flatMap_append, List.flatMap_cons, List.drop_left]
  · simpa using (row_append.1 row).2.2.1

/-- Every lexeme holds its first character. -/
theorem spans (starts : lexeme.StartsAt source start) :
    Spans source start lexeme start where
  starts := starts
  lower := Nat.le_refl start
  upper := Nat.lt_add_of_pos_right (List.length_pos_iff.2 lexeme.raw_ne_nil)

end StartsAt

/-- Every character of a text belongs to a lexeme. -/
theorem exists_spans
    {lexemes : List Lexeme}
    (reading : read source = .ok lexemes)
    (inside : index < source.length) :
    ∃ start lexeme, Spans source start lexeme index := by
  have found : ContractDoc.glyphs source = .ok (lexemes.flatMap glyphs) :=
    glyphs_eq_ok_iff.2 ⟨lexemes, reading, rfl⟩
  rw [← map_raw_of_glyphs found, List.length_map] at inside
  obtain ⟨before, lexeme, after, rfl, -, lower, upper⟩ :=
    exists_at (List.getElem?_eq_getElem inside)
  exact ⟨_, lexeme, ⟨before, after, reading, rfl⟩, lower, upper⟩

namespace Spans

/-- The character at an index stands in the lexeme that holds it. -/
theorem getElem?_source (spans : Spans source start lexeme index) :
    source[index]? = lexeme.raw[index - start]? := by
  obtain ⟨rest, drop_eq, -⟩ := spans.starts.exists_drop_eq
  have lower := spans.lower
  have upper := spans.upper
  rw [← List.getElem?_append_left (show index - start < lexeme.raw.length by omega),
    ← drop_eq, List.getElem?_drop, Nat.add_sub_cancel' lower]

/-- The lexeme that holds a character tells how the skeleton shows it. -/
theorem getElem?_glyphs
    {found : List Glyph}
    (spans : Spans source start lexeme index)
    (read : ContractDoc.glyphs source = .ok found) :
    found[index]? = lexeme.glyphs[index - start]? := by
  obtain ⟨lexemes, reading, rfl⟩ := glyphs_eq_ok_iff.1 read
  obtain ⟨⟨before, after, same, rfl⟩, lower, upper⟩ := spans
  obtain rfl := Except.ok.inj (reading.symm.trans same)
  have length (lexemes : List Lexeme) :
      (lexemes.flatMap glyphs).length = (lexemes.flatMap raw).length := by
    simp only [List.length_flatMap, ← map_raw_glyphs, List.length_map]
  have lexeme_length : lexeme.glyphs.length = lexeme.raw.length := by
    rw [← map_raw_glyphs, List.length_map]
  have before_length := length before
  rw [List.flatMap_append, List.flatMap_cons, List.getElem?_append_right (by omega),
    List.getElem?_append_left (by omega), before_length]

/-- Only one lexeme holds a character. -/
theorem unique
    {otherStart : Nat} {other : Lexeme}
    (spans : Spans source start lexeme index)
    (otherSpans : Spans source otherStart other index) :
    otherStart = start ∧ other = lexeme := by
  obtain ⟨⟨before, after, reading, rfl⟩, lower, upper⟩ := spans
  obtain ⟨⟨otherBefore, otherAfter, otherReading, rfl⟩, otherLower, otherUpper⟩ := otherSpans
  have same := Except.ok.inj (reading.symm.trans otherReading)
  rcases List.append_eq_append_iff.1 same with ⟨middle, rfl, rest⟩ | ⟨middle, rfl, rest⟩
  · cases middle with
    | nil =>
      obtain ⟨rfl, -⟩ := List.cons.inj rest
      exact ⟨by simp, rfl⟩
    | cons first middle =>
      obtain ⟨rfl, -⟩ := List.cons.inj rest
      simp only [List.flatMap_append, List.flatMap_cons, List.length_append] at otherLower
      omega
  · cases middle with
    | nil =>
      obtain ⟨rfl, -⟩ := List.cons.inj rest
      exact ⟨by simp, rfl⟩
    | cons first middle =>
      obtain ⟨rfl, -⟩ := List.cons.inj rest
      simp only [List.flatMap_append, List.flatMap_cons, List.length_append] at lower
      omega

/-- A lexeme that holds a character behind another lexeme starts behind it. -/
theorem le_start
    {otherStart : Nat} {other : Lexeme}
    (otherSpans : Spans source otherStart other index)
    (starts : lexeme.StartsAt source start)
    (behind : start + lexeme.raw.length ≤ index) :
    start + lexeme.raw.length ≤ otherStart := by
  by_contra overlaps
  have nonempty := List.length_pos_iff.2 lexeme.raw_ne_nil
  have upper := otherSpans.upper
  have last : Spans source start lexeme (start + lexeme.raw.length - 1) :=
    ⟨starts, by omega, by omega⟩
  have otherLast : Spans source otherStart other (start + lexeme.raw.length - 1) :=
    ⟨otherSpans.starts, by omega, by omega⟩
  obtain ⟨rfl, rfl⟩ := last.unique otherLast
  omega

end Spans
end Lexeme

/-- White space of a file is white space in its skeleton. -/
theorem isSpace_shown_of_raw
    {source : List Char} {found : List Glyph} {glyph : Glyph}
    (read : glyphs source = .ok found)
    (member : glyph ∈ found)
    (space : Text.isSpace glyph.raw = true) :
    Text.isSpace glyph.shown = true := by
  by_contra visible
  rw [Bool.not_eq_true] at visible
  rw [raw_eq_shown_of_glyphs read member visible, visible] at space
  cases space

end ContractDoc
