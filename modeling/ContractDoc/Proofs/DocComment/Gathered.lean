import ContractDoc.DocComment.Find
import ContractDoc.Proofs.Source.Span
import ContractDoc.Proofs.Tree.Read

/-!
# What comments are gathered from

The comment above a declaration is gathered from lines that begin like comments.  A
line that does so is a comment and nothing else, with three exceptions: the star at
its beginning multiplies, it goes on with a string literal from the line before, or
the comment at its beginning ends and code follows on the same line.
-/

namespace ContractDoc

open Text

/-! ## Lines and their places -/

theorem segmentsBy_ne_nil
    (isCut : Char → Bool)
    (text : List Char) :
    segmentsBy isCut text ≠ [] := by
  cases text with
  | nil => simp
  | cons c text =>
    rw [segmentsBy_cons]
    split <;> simp

/-- The first line of a text is the whole text, or a line feed and the other lines
follow it. -/
theorem eq_or_exists_of_lines_eq_cons
    {text line : List Char}
    {later : List (List Char)}
    (divided : lines text = line :: later) :
    '\n' ∉ line ∧
      (text = line ∧ later = [] ∨ ∃ rest, text = line ++ '\n' :: rest ∧ lines rest = later) := by
  induction text generalizing line with
  | nil =>
    obtain ⟨rfl, rfl⟩ := List.cons.inj divided
    exact ⟨List.not_mem_nil, .inl ⟨rfl, rfl⟩⟩
  | cons c text ih =>
    unfold lines segments at divided
    rw [segmentsBy_cons] at divided
    split at divided
    · next feed =>
      obtain ⟨rfl, rest_eq⟩ := List.cons.inj divided
      rw [beq_iff_eq] at feed
      exact ⟨List.not_mem_nil, .inr ⟨text, by rw [feed]; rfl, rest_eq⟩⟩
    · next other =>
      rw [beq_iff_eq] at other
      obtain ⟨first, others, rest_eq⟩ :=
        List.exists_cons_of_ne_nil (segmentsBy_ne_nil (· == '\n') text)
      rw [rest_eq] at divided
      obtain ⟨rfl, rfl⟩ := List.cons.inj divided
      obtain ⟨unbroken, ends⟩ := ih rest_eq
      refine ⟨?_, ?_⟩
      · rintro (_ | ⟨_, member⟩)
        · exact other rfl
        · exact unbroken member
      · rcases ends with ⟨rfl, nothing⟩ | ⟨rest, rfl, others_eq⟩
        · exact .inl ⟨rfl, nothing⟩
        · exact .inr ⟨rest, rfl, others_eq⟩

/-- A stretch of text without line feeds at the beginning of a line. -/
structure LineAt (source : List Char) (place : Nat) (line : List Char) : Prop where
  here : line <+: source.drop place
  unbroken : '\n' ∉ line
  begins : 0 < place → source[place - 1]? = some '\n'

/-- The place of a line is behind the earlier lines and their line feeds. -/
theorem LineAt.of_lines
    {text line rest : List Char}
    {earlier later : List (List Char)}
    (divided : lines text = earlier ++ line :: later) :
    LineAt (text ++ rest) (earlier.flatMap (· ++ ['\n'])).length line := by
  induction earlier generalizing text with
  | nil =>
    obtain ⟨unbroken, ends⟩ := eq_or_exists_of_lines_eq_cons divided
    refine ⟨?_, unbroken, fun positive => absurd positive (Nat.lt_irrefl 0)⟩
    rcases ends with ⟨rfl, -⟩ | ⟨others, rfl, -⟩
    · exact List.prefix_append _ _
    · rw [List.append_assoc]
      exact List.prefix_append _ _
  | cons first earlier ih =>
    obtain ⟨-, ends⟩ := eq_or_exists_of_lines_eq_cons divided
    rcases ends with ⟨-, nothing⟩ | ⟨others, rfl, others_eq⟩
    · exact absurd nothing (by simp)
    · obtain ⟨here, unbroken, begins⟩ := ih others_eq
      have whole : first ++ '\n' :: others ++ rest = (first ++ ['\n']) ++ (others ++ rest) := by
        simp
      rw [whole, List.flatMap_cons, List.length_append]
      refine ⟨?_, unbroken, ?_⟩
      · rw [List.drop_length_add_append]
        exact here
      · intro _
        rcases Nat.eq_zero_or_pos (earlier.flatMap (· ++ ['\n'])).length with zero | positive
        · rw [zero, Nat.add_zero, List.getElem?_append_left (by simp)]
          simp
        · rw [List.getElem?_append_right (by omega), ← begins positive]
          congr 1
          omega

/-- The place of the first character of a line that is no white space. -/
def firstVisible (place : Nat) (line : List Char) : Nat :=
  place + (line.takeWhile isSpace).length

namespace LineAt

variable {source line : List Char} {place index : Nat}

/-- The characters of a line stand in the text. -/
theorem getElem?_eq
    (lineAt : LineAt source place line)
    (lower : place ≤ index)
    (upper : index < place + line.length) :
    source[index]? = (line)[index - place]? := by
  obtain ⟨rest, whole⟩ := lineAt.here
  rw [← List.getElem?_append_left (show index - place < line.length by omega), whole,
    List.getElem?_drop, Nat.add_sub_cancel' lower]

theorem ne_lineFeed
    {c : Char}
    (lineAt : LineAt source place line)
    (lower : place ≤ index)
    (upper : index < place + line.length)
    (here : source[index]? = some c) :
    c ≠ '\n' := by
  rw [lineAt.getElem?_eq lower upper] at here
  rintro rfl
  exact lineAt.unbroken (List.mem_of_getElem? here)

/-- Up to its first visible character a line is white space. -/
theorem isSpace_of_lt_firstVisible
    {c : Char}
    (lineAt : LineAt source place line)
    (lower : place ≤ index)
    (upper : index < firstVisible place line)
    (here : source[index]? = some c) :
    isSpace c = true := by
  unfold firstVisible at upper
  have short := (List.takeWhile_prefix (l := line) isSpace).length_le
  have parts := List.takeWhile_append_dropWhile (p := isSpace) (l := line)
  rw [lineAt.getElem?_eq lower (by omega), ← parts, List.getElem?_append_left (by omega)] at here
  exact List.mem_takeWhile_imp (List.mem_of_getElem? here)

/-- From its first visible character on, a line stands in the text. -/
theorem prefix_drop_firstVisible (lineAt : LineAt source place line) :
    line.dropWhile isSpace <+: source.drop (firstVisible place line) := by
  obtain ⟨rest, whole⟩ := lineAt.here
  have parts : line ++ rest = line.takeWhile isSpace ++ (line.dropWhile isSpace ++ rest) := by
    rw [← List.append_assoc, List.takeWhile_append_dropWhile]
  refine ⟨rest, ?_⟩
  rw [firstVisible, ← List.drop_drop, ← whole, parts, List.drop_left]

end LineAt

/-! ## Gathered lines -/

namespace DocComment

/-- The lines from which the comment at the end of a text is gathered. -/
def gatheredLines (before : List Char) : List (List Char) :=
  ((lines before).reverse.takeWhile fun line => isCommentLine (strip line)).reverse

/-- A line of a text is gathered.  Its place is behind the earlier lines and their line
feeds. -/
def Gathers (before : List Char) (place : Nat) (line : List Char) : Prop :=
  ∃ earlier later,
    lines before = earlier ++ line :: later ∧
      line :: later <:+ gatheredLines before ∧
        (earlier.flatMap (· ++ ['\n'])).length = place

/-- Gathered lines are the last ones of a text. -/
theorem gatheredLines_suffix (before : List Char) :
    gatheredLines before <:+ lines before := by
  unfold gatheredLines
  rw [← List.reverse_prefix, List.reverse_reverse]
  exact List.takeWhile_prefix _

/-- What a comment says is what gathered lines say. -/
theorem exists_gathers_of_mem_linesAtEnd
    {before text : List Char}
    (listed : text ∈ linesAtEnd before) :
    ∃ place line, Gathers before place line ∧ strip line ≠ [] ∧
      text = stripMarkers (strip line) := by
  obtain ⟨mapped, nonempty⟩ := List.mem_filter.1 listed
  obtain ⟨line, gathered, rfl⟩ := List.mem_map.1 mapped
  obtain ⟨front, later, gathered_eq⟩ := List.append_of_mem gathered
  have suffix : line :: later <:+ gatheredLines before := ⟨front, gathered_eq.symm⟩
  obtain ⟨earlier, whole⟩ := suffix.trans (gatheredLines_suffix before)
  refine ⟨_, line, ⟨earlier, later, whole.symm, suffix, rfl⟩, ?_, rfl⟩
  intro blank
  rw [blank] at nonempty
  cases nonempty

namespace Gathers

variable {before line : List Char} {place : Nat}

/-- A gathered line begins like a comment. -/
theorem isCommentLine (gathers : Gathers before place line) :
    isCommentLine (strip line) = true := by
  obtain ⟨earlier, later, -, suffix, -⟩ := gathers
  have member : line ∈ gatheredLines before := suffix.mem List.mem_cons_self
  have looks := List.mem_takeWhile_imp (List.mem_reverse.1 member)
  exact looks

/-- A gathered line is a line of every text that goes on behind it. -/
theorem lineAt
    {source : List Char}
    (gathers : Gathers before place line)
    (continues : before <+: source) :
    LineAt source place line := by
  obtain ⟨earlier, later, divided, -, rfl⟩ := gathers
  obtain ⟨rest, rfl⟩ := continues
  exact .of_lines divided

end Gathers

/-- A line that begins like a comment begins with a star or with two characters that
open a comment. -/
theorem exists_cons_of_isCommentLine
    {line : List Char}
    (looks : isCommentLine (strip line) = true)
    (nonblank : strip line ≠ []) :
    ∃ c rest, line.dropWhile isSpace = c :: rest ∧
      (c = '*' ∨ c = '/' ∧ (rest.head? = some '/' ∨ rest.head? = some '*')) := by
  have trimmed : strip line <+: line.dropWhile isSpace := by
    unfold strip dropTrailingSpace skipSpace
    rw [← List.reverse_suffix, List.reverse_reverse]
    exact List.dropWhile_suffix _
  simp only [isCommentLine, Bool.or_eq_true, List.isEmpty_iff, List.isPrefixOf_iff_prefix,
    nonblank, false_or] at looks
  rcases looks with (star | block) | slashes
  · obtain ⟨rest, whole⟩ := star.trans trimmed
    exact ⟨'*', rest, whole.symm, .inl rfl⟩
  · obtain ⟨rest, whole⟩ := block.trans trimmed
    exact ⟨'/', '*' :: '*' :: rest, whole.symm, .inr ⟨rfl, .inr rfl⟩⟩
  · obtain ⟨rest, whole⟩ := slashes.trans trimmed
    exact ⟨'/', '/' :: '/' :: rest, whole.symm, .inr ⟨rfl, .inl rfl⟩⟩

/-! ## Lines that only look like comments -/

/-- A line holds nothing but comments and white space, and the skeleton hides it. -/
structure CommentOnly (source shown : List Char) (place : Nat) (line : List Char) : Prop where
  hidden : ∀ c ∈ (shown.drop place).take line.length, isSpace c = true
  inComment : ∀ index c, place ≤ index → index < place + line.length →
    source[index]? = some c → isSpace c = false → Lexeme.InComment source index

/-- The ways in which a line that begins like a comment is none: its star is code, it
begins inside a literal from an earlier line, or code follows the comment in which it
begins. -/
inductive Misleads (source shown : List Char) (place : Nat) (line : List Char) : Prop
  | star
      (code : (Lexeme.code '*').StartsAt source (firstVisible place line))
  | literal {start : Nat} {quote : Char} {body : List Char}
      (spans : Lexeme.Spans source start (.literal quote body) (firstVisible place line))
      (earlier : start < place)
  | codeBehind {start index : Nat} {body : List Char} {c : Char}
      (spans : Lexeme.Spans source start (.blockComment body) (firstVisible place line))
      (behind : start + (Lexeme.blockComment body).raw.length ≤ index)
      (onLine : index < place + line.length)
      (shows : shown[index]? = some c)
      (visible : isSpace c = false)

section Line

variable
  {source line : List Char}
  {found : List Glyph}
  {place : Nat}

/-- A character in a comment is hidden. -/
theorem isSpace_shown_of_inComment
    {index : Nat} {glyph : Glyph}
    (read : glyphs source = .ok found)
    (inside : Lexeme.InComment source index)
    (here : found[index]? = some glyph) :
    isSpace glyph.shown = true := by
  obtain ⟨start, lexeme, spans, comment⟩ := inside
  rw [spans.getElem?_glyphs read] at here
  by_contra visible
  rw [Bool.not_eq_true] at visible
  exact (Lexeme.raw_eq_shown_of_not_isSpace (List.mem_of_getElem? here) visible).2 comment

/-- A line whose visible characters stand in comments is hidden by the skeleton. -/
theorem CommentOnly.of_inComment
    (read : glyphs source = .ok found)
    (inComment : ∀ index c, place ≤ index → index < place + line.length →
      source[index]? = some c → isSpace c = false → Lexeme.InComment source index) :
    CommentOnly source (found.map Glyph.shown) place line where
  inComment := inComment
  hidden := by
    intro c member
    obtain ⟨index, here⟩ := List.mem_iff_getElem?.1 member
    rw [List.getElem?_take] at here
    split at here
    · next short =>
      rw [List.getElem?_drop, List.getElem?_map] at here
      obtain ⟨glyph, glyph_eq, rfl⟩ := Option.map_eq_some_iff.1 here
      by_cases space : isSpace glyph.raw = true
      · exact isSpace_shown_of_raw read (List.mem_of_getElem? glyph_eq) space
      · have raw_eq : source[place + index]? = some glyph.raw := by
          rw [← map_raw_of_glyphs read, List.getElem?_map, glyph_eq, Option.map_some]
        exact isSpace_shown_of_inComment read
          (inComment _ _ (Nat.le_add_right _ _) (by omega) raw_eq (by simpa using space))
          glyph_eq
    · cases here

/-- The first visible character of a line that begins like a comment. -/
theorem exists_visible
    (lineAt : LineAt source place line)
    (looks : isCommentLine (strip line) = true)
    (nonblank : strip line ≠ []) :
    firstVisible place line < place + line.length ∧
      ∃ c, source[firstVisible place line]? = some c ∧ isSpace c = false := by
  obtain ⟨c, others, visible_eq, opens⟩ := exists_cons_of_isCommentLine looks nonblank
  obtain ⟨tail, whole⟩ := lineAt.prefix_drop_firstVisible
  have length := congrArg List.length (List.takeWhile_append_dropWhile (p := isSpace) (l := line))
  rw [visible_eq] at whole length
  rw [List.length_append, List.length_cons] at length
  refine ⟨by unfold firstVisible; omega, c, ?_, ?_⟩
  · rw [← List.head?_drop, ← whole]
    rfl
  · rcases opens with rfl | ⟨rfl, -⟩ <;> rfl

/-- A lexeme that begins visibly on a line, before or at its first visible character,
begins with that character. -/
theorem eq_firstVisible_of_startsAt
    {start : Nat} {lexeme : Lexeme} {c : Char} {rest : List Char}
    (lineAt : LineAt source place line)
    (starts : lexeme.StartsAt source start)
    (raw_eq : lexeme.raw = c :: rest)
    (visible : isSpace c = false)
    (lower : place ≤ start)
    (upper : start ≤ firstVisible place line) :
    start = firstVisible place line := by
  have here := starts.spans.getElem?_source
  rw [Nat.sub_self, raw_eq] at here
  by_contra before
  rw [lineAt.isSpace_of_lt_firstVisible lower (by omega) here] at visible
  cases visible

/-- A character of code with which a line begins like a comment is a star.  A slash of code
stands neither before a slash nor before a star. -/
theorem star_of_spans_code
    {start : Nat} {c : Char}
    (lineAt : LineAt source place line)
    (looks : isCommentLine (strip line) = true)
    (nonblank : strip line ≠ [])
    (spans : Lexeme.Spans source start (.code c) (firstVisible place line)) :
    (Lexeme.code '*').StartsAt source (firstVisible place line) := by
  have lower := spans.lower
  have upper := spans.upper
  obtain rfl : start = firstVisible place line := by
    simp only [Lexeme.raw, List.length_singleton] at upper
    omega
  obtain ⟨rest, drop_eq, before⟩ := spans.starts.exists_drop_eq
  obtain ⟨first, others, visible_eq, opens⟩ := exists_cons_of_isCommentLine looks nonblank
  obtain ⟨tail, whole⟩ := lineAt.prefix_drop_firstVisible
  rw [visible_eq, drop_eq] at whole
  obtain ⟨rfl, rest_eq⟩ : first = c ∧ others ++ tail = rest := List.cons.inj whole
  rcases opens with rfl | ⟨rfl, second⟩
  · exact spans.starts
  · obtain ⟨notLine, notBlock⟩ := before rfl
    have next : rest.head? = others.head?.or tail.head? := by
      rw [← rest_eq, List.head?_append]
    rcases second with second | second
    · exact absurd (by rw [next, second]; rfl) notLine
    · exact absurd (by rw [next, second]; rfl) notBlock

/-- A literal in which a line begins like a comment begins on an earlier line. -/
theorem lt_of_spans_literal
    {start : Nat} {quote : Char} {body : List Char}
    (lineAt : LineAt source place line)
    (looks : isCommentLine (strip line) = true)
    (nonblank : strip line ≠ [])
    (spans : Lexeme.Spans source start (.literal quote body) (firstVisible place line)) :
    start < place := by
  by_contra onLine
  obtain ⟨isQuote, -⟩ := spans.starts.wellFormed
  have visible : isSpace quote = false := by
    rcases isQuote with rfl | rfl <;> rfl
  obtain rfl := eq_firstVisible_of_startsAt lineAt spans.starts rfl visible
    (Nat.le_of_not_lt onLine) spans.lower
  obtain ⟨rest, drop_eq, -⟩ := spans.starts.exists_drop_eq
  obtain ⟨first, others, visible_eq, opens⟩ := exists_cons_of_isCommentLine looks nonblank
  obtain ⟨tail, whole⟩ := lineAt.prefix_drop_firstVisible
  rw [visible_eq, drop_eq] at whole
  obtain ⟨rfl, -⟩ := List.cons.inj whole
  rcases isQuote with rfl | rfl <;> rcases opens with equal | ⟨equal, -⟩ <;> cases equal

/-- A line comment that holds the first visible character of a line holds all that
follow. -/
theorem inComment_of_spans_lineComment
    {start index : Nat} {body : List Char}
    (lineAt : LineAt source place line)
    (spans : Lexeme.Spans source start (.lineComment body) (firstVisible place line))
    (lower : firstVisible place line ≤ index)
    (upper : index < place + line.length)
    (inside : index < source.length) :
    Lexeme.InComment source index := by
  refine ⟨start, _, ⟨spans.starts, spans.lower.trans lower, ?_⟩, trivial⟩
  by_contra behind
  obtain ⟨rest, drop_eq, before⟩ := spans.starts.exists_drop_eq
  have stop_le : start + (Lexeme.lineComment body).raw.length ≤ index := Nat.le_of_not_lt behind
  have place_le : place ≤ firstVisible place line := Nat.le_add_right _ _
  have stop_lower := spans.upper
  have head : rest.head? = source[start + (Lexeme.lineComment body).raw.length]? := by
    rw [← List.head?_drop, ← List.drop_drop, drop_eq, List.drop_left]
  cases following : rest.head? with
  | none =>
    rw [following] at head
    have := List.getElem?_eq_none_iff.1 head.symm
    omega
  | some c =>
    rw [following] at head
    exact lineAt.ne_lineFeed (by omega) (by omega) head.symm (before c following)

/-- Behind a comment that ends on a line, what the skeleton hides stands in comments if
the skeleton hides the rest of the line. -/
theorem inComment_of_hidden_behind
    {stop index : Nat} {start : Nat} {lexeme : Lexeme} {c : Char}
    (read : glyphs source = .ok found)
    (starts : lexeme.StartsAt source start)
    (stop_eq : start + lexeme.raw.length = stop)
    (hidden : ∀ other shown, stop ≤ other → other < place + line.length →
      (found.map Glyph.shown)[other]? = some shown → isSpace shown = true)
    (lower : stop ≤ index)
    (upper : index < place + line.length)
    (here : source[index]? = some c)
    (visible : isSpace c = false) :
    Lexeme.InComment source index := by
  obtain ⟨lexemes, reading, -⟩ := glyphs_eq_ok_iff.1 read
  have inside := (List.getElem?_eq_some_iff.1 here).1
  obtain ⟨otherStart, other, spans⟩ := Lexeme.exists_spans reading inside
  have behind := spans.le_start starts (by omega)
  have start_le := spans.lower
  have shown_eq (place : Nat) (within : Lexeme.Spans source otherStart other place) :
      (found.map Glyph.shown)[place]? = (other.glyphs.map Glyph.shown)[place - otherStart]? := by
    rw [List.getElem?_map, List.getElem?_map, within.getElem?_glyphs read]
  refine ⟨otherStart, other, spans, ?_⟩
  cases other with
  | lineComment body => trivial
  | blockComment body => trivial
  | literal quote body =>
    obtain ⟨isQuote, -⟩ := spans.starts.wellFormed
    have opening := shown_eq otherStart spans.starts.spans
    rw [Nat.sub_self] at opening
    have space := hidden otherStart quote (by omega) (by omega) opening
    rcases isQuote with rfl | rfl <;> cases space
  | code d =>
    have upper := spans.upper
    obtain rfl : otherStart = index := by
      simp only [Lexeme.raw, List.length_singleton] at upper
      omega
    have shows := shown_eq otherStart spans
    rw [spans.getElem?_source, Nat.sub_self] at here
    rw [Nat.sub_self] at shows
    obtain rfl : d = c := Option.some.inj here
    rw [hidden otherStart d lower (by omega) shows] at visible
    cases visible

/-- A line that begins like a comment is a comment only, or misleads. -/
theorem commentOnly_or_misleads
    (read : glyphs source = .ok found)
    (lineAt : LineAt source place line)
    (looks : isCommentLine (strip line) = true)
    (nonblank : strip line ≠ []) :
    CommentOnly source (found.map Glyph.shown) place line ∨
      Misleads source (found.map Glyph.shown) place line := by
  obtain ⟨lexemes, reading, -⟩ := glyphs_eq_ok_iff.1 read
  obtain ⟨-, c, first, -⟩ := exists_visible lineAt looks nonblank
  obtain ⟨start, lexeme, spans⟩ :=
    Lexeme.exists_spans reading (List.getElem?_eq_some_iff.1 first).1
  cases lexeme with
  | code d => exact .inr (.star (star_of_spans_code lineAt looks nonblank spans))
  | literal quote body =>
    exact .inr (.literal spans (lt_of_spans_literal lineAt looks nonblank spans))
  | lineComment body =>
    refine .inl (.of_inComment read ?_)
    intro index d lower upper here visible
    by_cases before : index < firstVisible place line
    · rw [lineAt.isSpace_of_lt_firstVisible lower before here] at visible
      cases visible
    · exact inComment_of_spans_lineComment lineAt spans (Nat.le_of_not_lt before) upper
        (List.getElem?_eq_some_iff.1 here).1
  | blockComment body =>
    by_cases hidden : ∀ index shown, start + (Lexeme.blockComment body).raw.length ≤ index →
        index < place + line.length → (found.map Glyph.shown)[index]? = some shown →
          isSpace shown = true
    · refine .inl (.of_inComment read ?_)
      intro index d lower upper here visible
      by_cases before : index < firstVisible place line
      · rw [lineAt.isSpace_of_lt_firstVisible lower before here] at visible
        cases visible
      · by_cases within : index < start + (Lexeme.blockComment body).raw.length
        · have start_le := spans.lower
          exact ⟨start, _, ⟨spans.starts, by omega, within⟩, trivial⟩
        · exact inComment_of_hidden_behind read spans.starts rfl hidden
            (Nat.le_of_not_lt within) upper here visible
    · push Not at hidden
      obtain ⟨index, shown, behind, onLine, shows, visible⟩ := hidden
      exact .inr (.codeBehind spans behind onLine shows (by simpa using visible))

/-- A line that misleads is no comment. -/
theorem CommentOnly.not_misleads
    (read : glyphs source = .ok found)
    (only : CommentOnly source (found.map Glyph.shown) place line)
    (lineAt : LineAt source place line)
    (looks : isCommentLine (strip line) = true)
    (nonblank : strip line ≠ []) :
    ¬ Misleads source (found.map Glyph.shown) place line := by
  have space {index : Nat} {c : Char}
      (lower : place ≤ index)
      (upper : index < place + line.length)
      (shows : (found.map Glyph.shown)[index]? = some c) : isSpace c = true := by
    refine only.hidden c (List.mem_of_getElem? (i := index - place) ?_)
    rw [List.getElem?_take_of_lt (by omega), List.getElem?_drop, Nat.add_sub_cancel' lower]
    exact shows
  obtain ⟨onLine, c, first, visible⟩ := exists_visible lineAt looks nonblank
  have lower : place ≤ firstVisible place line := Nat.le_add_right _ _
  intro misleads
  cases misleads with
  | star code =>
    have glyph_eq := code.spans.getElem?_glyphs read
    rw [Nat.sub_self] at glyph_eq
    have shows := space (c := '*') lower onLine (by rw [List.getElem?_map, glyph_eq]; rfl)
    cases shows
  | literal spans earlier =>
    obtain ⟨start, lexeme, commentSpans, comment⟩ :=
      only.inComment _ c lower onLine first visible
    obtain ⟨rfl, rfl⟩ := spans.unique commentSpans
    exact comment
  | @codeBehind start index body d spans behind indexOnLine shows shownVisible =>
    have stop := spans.upper
    rw [space (by omega) indexOnLine shows] at shownVisible
    cases shownVisible

end Line

/-- A text before an offset is where the source begins. -/
theorem prefix_textBefore (source : List Char) (offset : Int) :
    textBefore source offset <+: source := by
  unfold textBefore
  split <;> exact List.take_prefix _ _

/-- For every file that can be read, the comment that ends right before an offset says
what gathered lines say, and a gathered line that is not blank is hidden by the skeleton
and stands in comments, unless its first visible character is a star of code, or stands
in a literal that begins on an earlier line, or stands in a block comment behind which
the line goes on with code. -/
theorem gathered_line_comment_iff
    (source : String)
    (tree : SourceUnit)
    (parsed : parse source = .ok tree)
    (offset : Int) :
    ∃ shown, skeleton source.toList = .ok shown ∧
      (∀ text ∈ linesAtEnd (textBefore source.toList offset), ∃ place line,
        Gathers (textBefore source.toList offset) place line ∧ strip line ≠ [] ∧
          text = stripMarkers (strip line)) ∧
      ∀ place line, Gathers (textBefore source.toList offset) place line → strip line ≠ [] →
        (CommentOnly source.toList shown place line ↔
          ¬ Misleads source.toList shown place line) := by
  obtain ⟨items, split, -⟩ := parse_eq_ok_iff.1 parsed
  obtain ⟨found, read, -⟩ := bind_eq_ok.1 split
  refine ⟨found.map Glyph.shown, skeleton_eq_ok_iff.2 ⟨found, read, rfl⟩, ?_, ?_⟩
  · intro text listed
    exact exists_gathers_of_mem_linesAtEnd listed
  · intro place line gathers nonblank
    have lineAt := gathers.lineAt (prefix_textBefore source.toList offset)
    constructor
    · intro only
      exact only.not_misleads read lineAt gathers.isCommentLine nonblank
    · intro honest
      exact (commentOnly_or_misleads read lineAt gathers.isCommentLine nonblank).resolve_right
        honest

/-- A contract with a comment before code on one line and a literal on two lines. -/
def continuedLexemes : List Lexeme :=
  "contract C \x7b\n  ".toList.map .code ++ .blockComment "* d ".toList ::
    (" uint y; function g() public \x7b\x7d\n  string s = ".toList.map .code ++
      .literal '"' "a\\\n* b".toList :: "; function h() public \x7b\x7d\n\x7d".toList.map .code)

/-- The text of the contract. -/
def continuedSource : String :=
  String.ofList (continuedLexemes.flatMap Lexeme.raw)

/-- Both lines are gathered for the functions that they precede, and neither is a
comment only. -/
theorem continued_lines_mislead :
    ∃ shown, skeleton continuedSource.toList = .ok shown ∧
      Gathers (textBefore continuedSource.toList 32) 13 "  /** d */ uint y; ".toList ∧
      ¬ CommentOnly continuedSource.toList shown 13 "  /** d */ uint y; ".toList ∧
      Gathers (textBefore continuedSource.toList 78) 72 "* b\"; ".toList ∧
      ¬ CommentOnly continuedSource.toList shown 72 "* b\"; ".toList := by
  have text : continuedSource.toList = continuedLexemes.flatMap Lexeme.raw :=
    String.toList_ofList
  cases parsed : parse continuedSource with
  | error error =>
    have parses : (parse continuedSource).toOption.isSome = true := by decide +kernel
    rw [parsed] at parses
    cases parses
  | ok tree =>
    obtain ⟨shown, shown_eq, -, first⟩ := gathered_line_comment_iff _ tree parsed 32
    obtain ⟨other, other_eq, -, second⟩ := gathered_line_comment_iff _ tree parsed 78
    obtain rfl := Except.ok.inj (shown_eq.symm.trans other_eq)
    rw [text] at shown_eq first second ⊢
    have reading : Lexeme.read (continuedLexemes.flatMap Lexeme.raw) = .ok continuedLexemes := by
      decide +kernel
    have showsCode :
        (skeleton (continuedLexemes.flatMap Lexeme.raw)).toOption.bind (·[24]?) = some 'u' := by
      decide +kernel
    have firstGathers : Gathers (textBefore (continuedLexemes.flatMap Lexeme.raw) 32) 13
        "  /** d */ uint y; ".toList :=
      ⟨["contract C \x7b".toList], [], by decide +kernel, ⟨[], by decide +kernel⟩, by decide⟩
    have secondGathers : Gathers (textBefore (continuedLexemes.flatMap Lexeme.raw) 78) 72
        "* b\"; ".toList :=
      ⟨["contract C \x7b".toList, "  /** d */ uint y; function g() public \x7b\x7d".toList,
        "  string s = \"a\\".toList], [], by decide +kernel, ⟨[], by decide +kernel⟩, by decide⟩
    have comment : Lexeme.Spans (continuedLexemes.flatMap Lexeme.raw) 15
        (.blockComment "* d ".toList) (firstVisible 13 "  /** d */ uint y; ".toList) :=
      ⟨⟨_, _, reading, by decide⟩, by decide, by decide⟩
    have literal : Lexeme.Spans (continuedLexemes.flatMap Lexeme.raw) 68
        (.literal '"' "a\\\n* b".toList) (firstVisible 72 "* b\"; ".toList) := by
      refine ⟨⟨continuedLexemes.take 61, continuedLexemes.drop 62, ?_, by decide⟩, by decide,
        by decide⟩
      rw [reading]
      decide +kernel
    rw [shown_eq] at showsCode
    refine ⟨shown, shown_eq, firstGathers, ?_, secondGathers, ?_⟩
    · intro only
      exact (first 13 _ firstGathers (by decide)).1 only
        (.codeBehind comment (by decide) (by decide) showsCode rfl)
    · intro only
      exact (second 72 _ secondGathers (by decide)).1 only (.literal literal (by decide))

/-- A contract whose variable is the product of numbers on two lines. -/
def multipliedSource : String :=
  "contract C \x7b\n  uint x = 2\n  * 3; function f() public \x7b\x7d\n\x7d"

/-- The second line of the product is gathered for the function behind it. -/
theorem multiplied_line_gathered :
    ∃ tree shown, parse multipliedSource = .ok tree ∧
      skeleton multipliedSource.toList = .ok shown ∧
        ∃ contract ∈ tree.contracts, ∃ member ∈ contract.body, ∃ place line,
          Gathers (textBefore multipliedSource.toList member.start) place line ∧
            strip line ≠ [] ∧
              ∃ c ∈ (shown.drop place).take line.length, isSpace c = false := by
  let function : Member :=
    .function ⟨"f", [], [⟨"public", none⟩], [], false, false, 33, 3⟩
  let contract : ContractDecl :=
    ⟨"C", .contract, [], [.stateVariable ⟨"x", "uint", "internal", false, 15, 2⟩, function],
      false, 0, 57, 1⟩
  have parsed : parse multipliedSource = .ok ⟨[.contract contract]⟩ := by decide +kernel
  have unhidden : skeleton multipliedSource.toList = .ok multipliedSource.toList := by
    decide +kernel
  refine ⟨_, _, parsed, unhidden, contract, List.mem_singleton_self contract, function,
    List.mem_cons_of_mem _ (List.mem_singleton_self function), 26, "  * 3; ".toList, ?_,
    by decide, '*', by decide +kernel, rfl⟩
  exact ⟨["contract C \x7b".toList, "  uint x = 2".toList], [], by decide +kernel,
    ⟨[], by decide +kernel⟩, by decide⟩

end DocComment

end ContractDoc
