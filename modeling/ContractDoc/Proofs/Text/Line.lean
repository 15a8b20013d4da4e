import ContractDoc.Proofs.Source.Joined
import ContractDoc.Proofs.Text.Segment

/-!
# Lines of prose

Lines are found again in a text, whether a line feed ends each of them or stands between
neighbours.  A line of prose is one that trimming leaves as it is.  Trimming a text keeps all
parts of it that have no white space at their ends.
-/

namespace ContractDoc
namespace Text

/-- A line of prose is not empty, holds no line feed, and has no white space at its ends. -/
@[mk_iff]
structure IsLine (line : List Char) : Prop where
  nonempty : line ≠ []
  unbroken : '\n' ∉ line
  starts : ∀ c ∈ line.head?, isSpace c = false
  ends : ∀ c ∈ line.getLast?, isSpace c = false

instance (line : List Char) : Decidable (IsLine line) :=
  decidable_of_iff
    (line ≠ [] ∧ '\n' ∉ line ∧ line.head?.all (!isSpace ·) ∧ line.getLast?.all (!isSpace ·))
    (by simp [isLine_iff, Option.all_eq_true])

/-- Lines that are ended by line feeds are found before those of the rest. -/
theorem lines_flatMap_append
    {rows : List (List Char)}
    (unbroken : ∀ row ∈ rows, '\n' ∉ row)
    (rest : List Char) :
    lines (rows.flatMap (· ++ ['\n']) ++ rest) = rows ++ lines rest := by
  induction rows with
  | nil => rfl
  | cons row rows ih =>
    obtain ⟨first, others⟩ := List.forall_mem_cons.1 unbroken
    have parts : (row :: rows).flatMap (· ++ ['\n']) ++ rest =
        row ++ '\n' :: (rows.flatMap (· ++ ['\n']) ++ rest) := by
      simp
    rw [parts, lines_append_lineFeed, lines_of_unbroken first, ih others]
    rfl

/-- Lines that are joined by line feeds are found again. -/
theorem filter_lines_joinWith
    {rows : List (List Char)}
    (areRows : ∀ row ∈ rows, row ≠ [] ∧ '\n' ∉ row) :
    (lines (joinWith ['\n'] rows)).filter (!·.isEmpty) = rows := by
  induction rows with
  | nil => rfl
  | cons row rows ih =>
    obtain ⟨⟨nonempty, unbroken⟩, others⟩ := List.forall_mem_cons.1 areRows
    have first : (lines row).filter (!·.isEmpty) = [row] := by
      rw [lines_of_unbroken unbroken]
      simp [nonempty]
    cases rows with
    | nil => rw [joinWith_singleton, first]
    | cons next rows =>
      rw [joinWith_cons_cons, List.singleton_append, lines_append_lineFeed, List.filter_append,
        first, ih others]
      rfl

/-! ## Trimming -/

/-- A text without white space at its ends is left as it is. -/
theorem strip_of_visible
    {text : List Char}
    (starts : ∀ c ∈ text.head?, isSpace c = false)
    (ends : ∀ c ∈ text.getLast?, isSpace c = false) :
    strip text = text := by
  have stripped :=
    @strip_append [] text [] (List.forall_mem_nil _) (List.forall_mem_nil _) starts ends
  rwa [List.nil_append, List.append_nil] at stripped

theorem dropTrailingSpace_prefix_self (text : List Char) : dropTrailingSpace text <+: text := by
  rw [← List.reverse_suffix, dropTrailingSpace, List.reverse_reverse]
  exact List.dropWhile_suffix isSpace

theorem strip_infix_self (text : List Char) : strip text <:+: text :=
  (dropTrailingSpace_prefix_self _).isInfix.trans (List.dropWhile_suffix isSpace).isInfix

theorem starts_skipSpace (text : List Char) :
    ∀ c ∈ (skipSpace text).head?, isSpace c = false := by
  intro c head
  have visible := List.head?_dropWhile_not isSpace text
  rwa [← skipSpace, Option.mem_def.1 head] at visible

theorem starts_strip (text : List Char) : ∀ c ∈ (strip text).head?, isSpace c = false := by
  intro c head
  refine starts_skipSpace text c ?_
  obtain ⟨trail, parts⟩ := dropTrailingSpace_prefix_self (skipSpace text)
  rw [← parts, List.head?_append]
  exact Option.or_eq_some_iff.2 (.inl head)

theorem ends_strip (text : List Char) : ∀ c ∈ (strip text).getLast?, isSpace c = false := by
  rw [strip, dropTrailingSpace, List.getLast?_reverse]
  exact starts_skipSpace (skipSpace text).reverse

/-- Leading white space is skipped outside of a part that begins with another character. -/
theorem infix_skipSpace
    {part text : List Char}
    (starts : ∀ c ∈ part.head?, isSpace c = false)
    (inside : part <:+: text) :
    part <:+: skipSpace text := by
  induction text with
  | nil => exact inside
  | cons c text ih =>
    cases space : isSpace c with
    | false => rwa [skipSpace_of_visible (by simpa using space)]
    | true =>
      have skipped : skipSpace (c :: text) = skipSpace text := by simp [skipSpace, space]
      rw [skipped]
      rcases List.infix_cons_iff.1 inside with ⟨rest, begins⟩ | later
      · cases part with
        | nil => exact List.nil_infix
        | cons d part =>
          obtain rfl := (List.cons.inj begins).1
          rw [starts d rfl] at space
          cases space
      · exact ih later

/-- A part without white space at its ends is kept when a text around it is trimmed. -/
theorem infix_strip
    {part text : List Char}
    (starts : ∀ c ∈ part.head?, isSpace c = false)
    (ends : ∀ c ∈ part.getLast?, isSpace c = false)
    (inside : part <:+: text) :
    part <:+: strip text := by
  have reversed := List.reverse_infix.2 (infix_skipSpace starts inside)
  have kept := infix_skipSpace (by simpa using ends) reversed
  rwa [← List.reverse_infix, strip, dropTrailingSpace, List.reverse_reverse]

end Text
end ContractDoc
