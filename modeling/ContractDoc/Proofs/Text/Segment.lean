import ContractDoc.Text.Segment

/-!
# Segments and lines

A cut divides the segments of a text into those before it and those behind it.  A piece without
cuts is one segment.
-/

namespace ContractDoc
namespace Text

theorem segmentsBy_eq_splitOnP (isCut : Char → Bool) (text : List Char) :
    segmentsBy isCut text = text.splitOnP isCut := by
  induction text with
  | nil => rfl
  | cons c text ih =>
      rw [segmentsBy_cons, List.splitOnP_cons_eq_if_modifyHead, ih]
      obtain ⟨piece, pieces, pieces_eq⟩ :=
        List.exists_cons_of_ne_nil (List.splitOnP_ne_nil isCut text)
      rw [pieces_eq]
      rfl

/-- The first segment of a text ends at the first cut. -/
theorem segmentsBy_append_cons
    {isCut : Char → Bool} {part : List Char} {c : Char}
    (uncut : ∀ d ∈ part, isCut d = false)
    (cut : isCut c = true)
    (rest : List Char) :
    segmentsBy isCut (part ++ c :: rest) = part :: segmentsBy isCut rest := by
  rw [segmentsBy_eq_splitOnP, segmentsBy_eq_splitOnP,
    List.splitOnP_append_cons_of_forall_mem uncut c cut]

theorem segmentsBy_of_uncut
    {isCut : Char → Bool} {part : List Char}
    (uncut : ∀ d ∈ part, isCut d = false) :
    segmentsBy isCut part = [part] := by
  rw [segmentsBy_eq_splitOnP, List.splitOnP_eq_singleton uncut]

/-- A line feed ends a line, and the lines behind it are those of the rest. -/
theorem lines_append_lineFeed (front rest : List Char) :
    lines (front ++ '\n' :: rest) = lines front ++ lines rest := by
  unfold lines segments
  rw [segmentsBy_eq_splitOnP, segmentsBy_eq_splitOnP, segmentsBy_eq_splitOnP,
    List.splitOnP_append_cons front rest rfl]

/-- A text without line feeds is one line. -/
theorem lines_of_unbroken
    {line : List Char}
    (unbroken : '\n' ∉ line) :
    lines line = [line] := by
  refine segmentsBy_of_uncut fun c member => ?_
  rw [beq_eq_false_iff_ne]
  rintro rfl
  exact unbroken member

/-- A text is cut at the first separator. -/
theorem cutAt_append
    {separator : Char} {part : List Char}
    (absent : separator ∉ part)
    (rest : List Char) :
    cutAt separator (part ++ separator :: rest) = (part, rest) := by
  have uncut : ∀ c ∈ part, (c != separator) = true := by
    intro c member
    rw [bne_iff_ne]
    rintro rfl
    exact absent member
  rw [cutAt, List.takeWhile_append_of_pos uncut, List.dropWhile_append_of_pos uncut]
  simp

end Text
end ContractDoc
