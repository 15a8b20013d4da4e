import ContractDoc.Proofs.Tree.Contract
import ContractDoc.Proofs.Tree.Parameter

/-!
# Items on one line

The places of items that stand on one line, without comments and literals and with one space
between them, follow from their lengths.
-/

namespace ContractDoc

open Text

/-! ## Texts on one line -/

/-- The characters that open comments and literals, and the end of a line. -/
def isLexical (c : Char) : Bool :=
  ['/', '"', '\'', '\n'].contains c

/-- A text of one line without comments and literals. -/
def Flat (text : List Char) : Prop :=
  ∀ c ∈ text, isLexical c = false

instance (text : List Char) : Decidable (Flat text) :=
  List.decidableBAll _ text

namespace Flat

variable {text : List Char}

theorem append
    {back : List Char}
    (flat : Flat text)
    (backFlat : Flat back) :
    Flat (text ++ back) :=
  List.forall_mem_append.2 ⟨flat, backFlat⟩

theorem of_isIdentifier
    (identifier : isIdentifier text = true) :
    Flat text := by
  intro c member
  by_contra lexical
  rw [Bool.not_eq_false, isLexical, List.contains_iff_mem] at lexical
  have apart : ['/', '"', '\'', '\n'].all (fun d => !(isWordChar d || d == '$')) = true := by
    decide
  have notInName := List.all_eq_true.1 apart c lexical
  rw [inIdentifier identifier c member] at notInName
  cases notInName

theorem notMem
    {c : Char}
    (flat : Flat text)
    (lexical : isLexical c = true) :
    c ∉ text := by
  intro member
  rw [flat c member] at lexical
  cases lexical

theorem onlyCode (flat : Flat text) : Lexeme.OnlyCode text :=
  .of_notMem (flat.notMem rfl) (flat.notMem rfl) (flat.notMem rfl)

/-- The places behind a text of one line are on this line. -/
theorem advanceBy_eq
    (flat : Flat text)
    (position : Position) :
    position.advanceBy text = ⟨position.offset + text.length, position.line⟩ := by
  have offset := position.offset_advanceBy text
  have line := position.line_advanceBy text
  rw [List.count_eq_zero_of_not_mem (flat.notMem rfl), Nat.add_zero] at line
  rw [← offset, ← line]

end Flat

/-! ## Members of a body on one line -/

/-- Texts on one line, with a space before each of them and behind the last one. -/
def inLine (texts : List (List Char)) : List Char :=
  texts.flatMap (' ' :: ·) ++ [' ']

/-- Such texts as items on the first line, behind a number of characters. -/
def itemsInLine : Nat → List (List Char) → List Item
  | _, [] => []
  | offset, text :: texts =>
      ⟨⟨offset + 1, 1⟩, text.map Glyph.kept⟩ :: itemsInLine (offset + 1 + text.length) texts

theorem inLine_cons
    (text : List Char)
    (texts : List (List Char)) :
    inLine (text :: texts) = [' '] ++ (text ++ inLine texts) := by
  simp [inLine]

theorem flat_inLine
    {texts : List (List Char)}
    (areFlat : ∀ text ∈ texts, Flat text) :
    Flat (inLine texts) := by
  induction texts with
  | nil => decide
  | cons text texts ih =>
    obtain ⟨flat, others⟩ := List.forall_mem_cons.1 areFlat
    rw [inLine_cons]
    exact .append (by decide) (flat.append (ih others))

/-- Texts of items in a line are split into these items. -/
theorem splitItems_inLine
    {texts : List (List Char)}
    (areItems : ∀ text ∈ texts, Item.IsText text)
    (areFlat : ∀ text ∈ texts, Flat text)
    (offset : Nat) :
    splitItems ⟨offset, 1⟩ ((inLine texts).map Glyph.kept) = .ok (itemsInLine offset texts) := by
  refine splitItems_eq_ok_iff_cut.2 ?_
  induction texts generalizing offset with
  | nil => exact .of_blank isGap_space.blank _
  | cons text texts ih =>
    obtain ⟨isText, others⟩ := List.forall_mem_cons.1 areItems
    obtain ⟨flat, othersFlat⟩ := List.forall_mem_cons.1 areFlat
    rw [inLine_cons]
    refine .cons_kept isGap_space.blank isText ?_
    rw [flat.advanceBy_eq]
    exact ih others othersFlat _

theorem length_inLine_cons
    (text : List Char)
    (texts : List (List Char)) :
    (inLine (text :: texts)).length = 1 + text.length + (inLine texts).length := by
  rw [inLine_cons, List.length_append, List.length_append, List.length_singleton, Nat.add_assoc]

end ContractDoc
