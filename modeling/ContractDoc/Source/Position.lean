/-!
# Positions in a source text

A position counts the characters before it and names its line.  Lines are
numbered from one and end at a line feed.
-/

namespace ContractDoc

/-- A place between two characters of a source text. -/
structure Position where
  /-- Number of characters before the place. -/
  offset : Nat
  /-- Number of the line that holds the place. -/
  line : Nat
  deriving DecidableEq, Repr

namespace Position

/-- The start of a text. -/
def origin : Position := ⟨0, 1⟩

/-- The position behind one character. -/
def advance (position : Position) (c : Char) : Position where
  offset := position.offset + 1
  line := if c = '\n' then position.line + 1 else position.line

/-- The position behind a text. -/
def advanceBy (position : Position) (text : List Char) : Position :=
  text.foldl advance position

@[simp] theorem advanceBy_nil (position : Position) :
    position.advanceBy [] = position := rfl

@[simp] theorem advanceBy_cons (position : Position) (c : Char) (rest : List Char) :
    position.advanceBy (c :: rest) = (position.advance c).advanceBy rest := rfl

theorem advanceBy_append (position : Position) (front back : List Char) :
    position.advanceBy (front ++ back) =
      (position.advanceBy front).advanceBy back := by
  simp [advanceBy]

theorem offset_advanceBy (position : Position) (text : List Char) :
    (position.advanceBy text).offset = position.offset + text.length := by
  induction text generalizing position with
  | nil => rfl
  | cons c rest ih =>
    simp only [advanceBy_cons, ih, advance, List.length_cons]
    omega

theorem line_advanceBy (position : Position) (text : List Char) :
    (position.advanceBy text).line = position.line + text.count '\n' := by
  induction text generalizing position with
  | nil => rfl
  | cons c rest ih =>
    simp only [advanceBy_cons, ih, advance, List.count_cons, beq_iff_eq]
    split <;> omega

end Position
end ContractDoc
