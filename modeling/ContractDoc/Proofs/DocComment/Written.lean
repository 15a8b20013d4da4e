import ContractDoc.Proofs.DocComment.Gathered
import ContractDoc.Proofs.Text.Line

/-!
# Comments as they are written

A comment is written in one of two styles: as a block between `/**` and `*/` whose rows begin
with a star, or as rows that begin with three slashes.  Whatever its lines say, they are read
back, and nothing else is: of the text above only the row directly before the comment counts,
and white space around the rows and behind the comment does not.
-/

namespace ContractDoc
namespace DocComment

open Text

/-- What a row can say in either style. -/
@[mk_iff]
structure IsText (text : List Char) : Prop where
  isLine : IsLine text
  unclosed : ¬ "*/".toList <:+ text

instance (text : List Char) : Decidable (IsText text) :=
  decidable_of_iff _ (isText_iff text).symm

/-- The white space around what stands on a row.  Where line feeds follow carriage returns,
these belong to it. -/
structure Margin where
  lead : List Char
  trail : List Char
  leadBlank : ∀ c ∈ lead, isSpace c = true ∧ c ≠ '\n'
  trailBlank : ∀ c ∈ trail, isSpace c = true ∧ c ≠ '\n'

/-- A row of a comment, without its line feed. -/
def Margin.around (margin : Margin) (shown : List Char) : List Char :=
  margin.lead ++ (shown ++ margin.trail)

/-- A row that says a text behind a mark. -/
def IsMarked (mark : String) (text row : List Char) : Prop :=
  ∃ margin : Margin, row = margin.around (mark.toList ++ ' ' :: text)

/-- The rows of a comment that says some texts, in either style.  The margins of a block may
put its stars under the first one of the row that opens it. -/
inductive IsWritten (texts : List (List Char)) : List (List Char) → Prop
  | block
      (opening closing : Margin)
      {rows : List (List Char)}
      (marked : List.Forall₂ (IsMarked "*") texts rows) :
      IsWritten texts (opening.around "/**".toList :: (rows ++ [closing.around "*/".toList]))
  | slashes
      {rows : List (List Char)}
      (marked : List.Forall₂ (IsMarked "///") texts rows) :
      IsWritten texts rows

/-- The beginnings of lines that may belong to a comment. -/
def marks : List String := ["*", "/**", "///"]

/-- What stands above a comment: nothing, or a text that ends with a whole line that does not
belong to a comment. -/
inductive EndsForeign : List Char → Prop
  | nothing : EndsForeign []
  | line
      {earlier line : List Char}
      (whole : ∀ c ∈ earlier.getLast?, c = '\n')
      (unbroken : '\n' ∉ line)
      (nonblank : strip line ≠ [])
      (unmarked : ∀ mark ∈ marks, ¬ mark.toList <+: strip line) :
      EndsForeign (earlier ++ (line ++ ['\n']))

/-! ## What rows say -/

/-- A row that belongs to a comment and says a text, or nothing if the text is empty. -/
structure Tells (row text : List Char) : Prop where
  unbroken : '\n' ∉ row
  looks : isCommentLine (strip row) = true
  text_eq : stripMarkers (strip row) = text

/-- Nothing is dropped at the end of a line that does not close a comment. -/
theorem dropEndMarker_of_unclosed
    {line : List Char}
    (unbroken : '\n' ∉ line)
    (unclosed : ¬ "*/".toList <:+ line) :
    dropEndMarker line = line := by
  have noFeed : line.getLast? ≠ some '\n' := fun last => unbroken (List.mem_of_getLast? last)
  unfold dropEndMarker
  simp only [noFeed, if_false, List.length_nil, List.drop_zero]
  split
  · next rest closes =>
    refine absurd ?_ unclosed
    rw [← List.reverse_prefix, closes]
    exact List.prefix_append _ rest
  · rfl

/-- Behind a mark and a space a text closes a comment only if it does so by itself. -/
theorem IsText.unclosed_append
    {text : List Char}
    (isText : IsText text)
    (mark : List Char) :
    ¬ "*/".toList <:+ mark ++ ' ' :: text := by
  intro closes
  obtain ⟨last, others, reverse_eq⟩ :=
    List.exists_cons_of_ne_nil (List.reverse_ne_nil_iff.2 isText.isLine.nonempty)
  rw [← List.reverse_prefix, List.reverse_append, List.reverse_cons, reverse_eq] at closes
  refine isText.unclosed ?_
  rw [← List.reverse_prefix, reverse_eq]
  obtain ⟨same, before⟩ := List.cons_prefix_cons.1 closes
  refine List.cons_prefix_cons.2 ⟨same, ?_⟩
  cases others with
  | nil => exact absurd (List.cons_prefix_cons.1 before).1 (by decide)
  | cons c others =>
    exact List.cons_prefix_cons.2 ⟨(List.cons_prefix_cons.1 before).1, List.nil_prefix⟩

/-- Around the white space of a margin nothing of a row is lost. -/
theorem Tells.around
    {shown text : List Char}
    (margin : Margin)
    (isLine : IsLine shown)
    (looks : isCommentLine shown = true)
    (text_eq : stripMarkers shown = text) :
    Tells (margin.around shown) text := by
  have trimmed : strip (margin.around shown) = shown :=
    strip_append (fun c member => (margin.leadBlank c member).1)
      (fun c member => (margin.trailBlank c member).1) isLine.starts isLine.ends
  refine ⟨?_, by rw [trimmed, looks], by rw [trimmed, text_eq]⟩
  unfold Margin.around
  simp only [List.mem_append, not_or]
  exact ⟨fun member => (margin.leadBlank _ member).2 rfl, isLine.unbroken,
    fun member => (margin.trailBlank _ member).2 rfl⟩

/-- White space says nothing. -/
theorem Tells.of_blank
    {row : List Char}
    (unbroken : '\n' ∉ row)
    (blank : ∀ c ∈ row, isSpace c = true) :
    Tells row [] := by
  refine ⟨unbroken, ?_, ?_⟩ <;> rw [strip_of_blank blank] <;> rfl

/-- A mark at the beginning of rows: with it a line belongs to a comment, and it is taken away
as a whole if a space follows. -/
structure IsMark (mark : String) : Prop where
  isLine : IsLine mark.toList
  looks : ∀ rest, isCommentLine (mark.toList ++ rest) = true
  dropped : ∀ rest, dropStartMarker (mark.toList ++ ' ' :: rest) = ' ' :: rest

theorem isMark_star : IsMark "*" :=
  ⟨by decide, fun rest => by simp [isCommentLine], fun rest => rfl⟩

theorem isMark_slashes : IsMark "///" :=
  ⟨by decide, fun rest => by simp [isCommentLine], fun rest => rfl⟩

section Marked

variable {mark : String} {text row : List Char}

/-- A text behind a mark and a space is a line. -/
theorem IsText.isLine_append
    (isText : IsText text)
    (isMark : IsMark mark) :
    IsLine (mark.toList ++ ' ' :: text) where
  nonempty := by simp
  unbroken := by simp [isMark.isLine.unbroken, isText.isLine.unbroken]
  starts := by
    rw [List.head?_append_of_ne_nil _ isMark.isLine.nonempty]
    exact isMark.isLine.starts
  ends := by
    rw [List.append_cons, List.getLast?_append_of_ne_nil _ isText.isLine.nonempty]
    exact isText.isLine.ends

/-- What stands behind a mark is what the row says, marks of either style included. -/
theorem IsText.tells
    (isText : IsText text)
    (isMark : IsMark mark)
    (marked : IsMarked mark text row) :
    Tells row text := by
  obtain ⟨margin, rfl⟩ := marked
  have isLine := isText.isLine_append isMark
  refine .around margin isLine (isMark.looks _) ?_
  have nothing : ∀ c ∈ ([] : List Char), isSpace c = true := List.forall_mem_nil _
  have trimmed := strip_append nothing nothing isText.isLine.starts isText.isLine.ends
  rw [List.append_nil, List.nil_append] at trimmed
  rw [stripMarkers, dropEndMarker_of_unclosed isLine.unbroken (isText.unclosed_append _),
    isMark.dropped, strip_cons_of_isSpace rfl, trimmed]

end Marked

theorem forall₂_tells
    {mark : String}
    {texts rows : List (List Char)}
    (isMark : IsMark mark)
    (areTexts : ∀ text ∈ texts, IsText text)
    (marked : List.Forall₂ (IsMarked mark) texts rows) :
    List.Forall₂ Tells rows texts := by
  induction marked with
  | nil => exact .nil
  | cons first _ ih =>
    obtain ⟨isText, others⟩ := List.forall_mem_cons.1 areTexts
    exact .cons (isText.tells isMark first) (ih others)

/-- The rows of a comment say its texts in order, and some of them say nothing. -/
theorem IsWritten.exists_tells
    {texts rows : List (List Char)}
    (areTexts : ∀ text ∈ texts, IsText text)
    (written : IsWritten texts rows) :
    ∃ said, List.Forall₂ Tells rows said ∧ said.filter (!·.isEmpty) = texts := by
  have kept : texts.filter (!·.isEmpty) = texts := by
    refine List.filter_eq_self.2 fun text member => ?_
    simp [(areTexts text member).isLine.nonempty]
  cases written with
  | block opening closing marked =>
    refine ⟨[] :: (texts ++ [[]]), ?_, by simp [kept]⟩
    refine .cons (.around opening (by decide) rfl rfl) (List.rel_append ?_ ?_)
    · exact forall₂_tells isMark_star areTexts marked
    · exact .cons (.around closing (by decide) rfl rfl) .nil
  | slashes marked =>
    exact ⟨texts, forall₂_tells isMark_slashes areTexts marked, kept⟩

/-! ## Which rows belong to a comment -/

theorem isCommentLine_eq_false
    {line : List Char}
    (nonblank : line ≠ [])
    (unmarked : ∀ mark ∈ marks, ¬ mark.toList <+: line) :
    isCommentLine line = false := by
  have none (mark : String) (member : mark ∈ marks) : mark.toList.isPrefixOf line = false := by
    rw [Bool.eq_false_iff, Ne, List.isPrefixOf_iff_prefix]
    exact unmarked mark member
  rw [isCommentLine, none "*" (by decide), none "/**" (by decide), none "///" (by decide),
    List.isEmpty_eq_false_iff.2 nonblank]
  rfl

/-- The lines of a text that follow something foreign are the lines of the text itself. -/
theorem EndsForeign.exists_lines
    {preceding : List Char}
    (foreign : EndsForeign preceding) :
    ∃ earlier, (∀ line ∈ earlier.getLast?, isCommentLine (strip line) = false) ∧
      ∀ rest, lines (preceding ++ rest) = earlier ++ lines rest := by
  cases foreign with
  | nothing => exact ⟨[], by simp, fun rest => rfl⟩
  | @line earlier line whole unbroken nonblank unmarked =>
    have foreignLine := isCommentLine_eq_false nonblank unmarked
    have behind (rest : List Char) :
        lines (line ++ ['\n'] ++ rest) = line :: lines rest := by
      rw [List.append_assoc, List.singleton_append, lines_append_lineFeed,
        lines_of_unbroken unbroken]
      rfl
    rcases List.eq_nil_or_concat' earlier with rfl | ⟨front, c, rfl⟩
    · exact ⟨[line], by simpa using foreignLine, behind⟩
    · obtain rfl : c = '\n' := whole c (by simp)
      refine ⟨lines front ++ [line], by simpa using foreignLine, fun rest => ?_⟩
      rw [List.append_assoc, List.append_assoc, List.singleton_append, lines_append_lineFeed,
        behind, List.append_assoc, List.singleton_append]

theorem gatheredLines_eq
    {before : List Char}
    {earlier later : List (List Char)}
    (divided : lines before = earlier ++ later)
    (foreign : ∀ line ∈ earlier.getLast?, isCommentLine (strip line) = false)
    (looks : ∀ line ∈ later, isCommentLine (strip line) = true) :
    gatheredLines before = later := by
  have stops : earlier.reverse.takeWhile (fun line => isCommentLine (strip line)) = [] := by
    rw [← List.head?_reverse] at foreign
    cases reverse_eq : earlier.reverse with
    | nil => rfl
    | cons line others =>
      rw [reverse_eq] at foreign
      exact List.takeWhile_cons_of_neg (by simp [foreign line rfl])
  have all : ∀ line ∈ later.reverse, isCommentLine (strip line) = true := by simpa using looks
  rw [gatheredLines, divided, List.reverse_append, List.takeWhile_append_of_pos all, stops,
    List.append_nil, List.reverse_reverse]

/-- What is found are the texts of the last rows that belong to a comment. -/
theorem linesAtEnd_eq
    {before : List Char}
    {earlier later said : List (List Char)}
    (divided : lines before = earlier ++ later)
    (foreign : ∀ line ∈ earlier.getLast?, isCommentLine (strip line) = false)
    (tells : List.Forall₂ Tells later said) :
    linesAtEnd before = said.filter (!·.isEmpty) := by
  obtain ⟨looks, texts⟩ := (List.forall₂_and_left _ _).1
    (tells.imp fun _ _ lineTells => ⟨lineTells.looks, lineTells.text_eq⟩)
  rw [← List.forall₂_map_left_iff, List.forall₂_eq_eq_eq] at texts
  rw [← texts, ← gatheredLines_eq divided foreign looks]
  rfl

/-- The lines of white space say nothing. -/
theorem forall₂_tells_of_blank
    {gap : List Char}
    (blank : ∀ c ∈ gap, isSpace c = true) :
    List.Forall₂ Tells (lines gap) ((lines gap).map fun _ => []) := by
  rw [List.forall₂_map_right_iff, List.forall₂_same]
  intro line member
  obtain ⟨earlier, later, divided⟩ := List.append_of_mem member
  have lineAt : LineAt (gap ++ []) _ line := .of_lines divided
  rw [List.append_nil] at lineAt
  exact .of_blank lineAt.unbroken fun c inLine =>
    blank c ((List.drop_subset _ _) (lineAt.here.subset inLine))

theorem textBefore_append (before rest : List Char) :
    textBefore (before ++ rest) before.length = before := by
  simp [textBefore]

/-- **Comments are read back in either style.**  A comment that says some texts, as a block or
behind slashes, with any white space around its rows and before the declaration that follows,
and with nothing above it or a line that does not belong to a comment, is found as these texts,
joined by line feeds. -/
theorem find_written_comment
    {preceding gap : List Char}
    {texts rows : List (List Char)}
    (foreign : EndsForeign preceding)
    (areTexts : ∀ text ∈ texts, IsText text)
    (written : IsWritten texts rows)
    (blank : ∀ c ∈ gap, isSpace c = true)
    (declaration : List Char) :
    let before := preceding ++ (rows.flatMap (· ++ ['\n']) ++ gap)
    find (String.ofList (before ++ declaration)) before.length =
      String.ofList (joinWith ['\n'] texts) := by
  intro before
  obtain ⟨said, tells, said_eq⟩ := written.exists_tells areTexts
  obtain ⟨earlier, foreignLines, divided⟩ := foreign.exists_lines
  obtain ⟨unbroken, -⟩ := (List.forall₂_and_left _ _).1
    (tells.imp fun _ _ rowTells => ⟨rowTells.unbroken, rowTells⟩)
  have lines_eq : lines before = earlier ++ (rows ++ lines gap) := by
    rw [divided, lines_flatMap_append unbroken]
  have found := linesAtEnd_eq lines_eq foreignLines
    (List.rel_append tells (forall₂_tells_of_blank blank))
  have nothing : ((lines gap).map fun _ => ([] : List Char)).filter (!·.isEmpty) = [] := by
    simp
  rw [List.filter_append, said_eq, nothing, List.append_nil] at found
  rw [find, String.toList_ofList, textBefore_append, atEnd, found]

/-- A tab and a space before what stands on a row, and a carriage return behind it. -/
def Margin.tabbed : Margin := ⟨['\t', ' '], ['\r'], by simp [isSpace], by simp [isSpace]⟩

/-- Nothing before what stands on a row, or behind it. -/
def Margin.bare : Margin := ⟨[], [], List.forall_mem_nil _, List.forall_mem_nil _⟩

/-- Three texts that hold the marks of both styles are read back from both. -/
theorem marks_read_back_in_either_style :
    find ("uint x; // *\r\n\t /**\r\n\t * */ a *\r\n" ++
        "* /// /** b\n\t * /\r\n\t */\r\n\r\n \tuint y;") 62 =
        "*/ a *\n/// /** b\n/" ∧
      find "/// */ a *\n\t /// /// /** b\r\n/// /\nuint y;" 34 = "*/ a *\n/// /** b\n/" := by
  have foreign : EndsForeign ([] ++ ("uint x; // *\r".toList ++ ['\n'])) :=
    .line (by simp) (by decide) (by decide) (by decide)
  have areTexts :
      ∀ text ∈ ["*/ a *".toList, "/// /** b".toList, "/".toList], IsText text := by
    decide
  have blank : ∀ c ∈ "\r\n \t".toList, isSpace c = true := List.all_eq_true.1 (by decide)
  constructor
  · exact find_written_comment foreign areTexts
      (.block .tabbed .tabbed
        (.cons ⟨.tabbed, rfl⟩ (.cons ⟨.bare, rfl⟩ (.cons ⟨.tabbed, rfl⟩ .nil))))
      blank "uint y;".toList
  · exact find_written_comment .nothing areTexts
      (.slashes (.cons ⟨.bare, rfl⟩ (.cons ⟨.tabbed, rfl⟩ (.cons ⟨.bare, rfl⟩ .nil))))
      (List.forall_mem_nil _) "uint y;".toList

end DocComment
end ContractDoc
