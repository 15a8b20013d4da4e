import ContractDoc.Proofs.Source.Items
import ContractDoc.Proofs.Source.Lexeme

/-!
# Texts that hold a single item

A text of code alone, without comments and quotes, is its own skeleton.  An item can be put
together from its parts: up to its end stands a text behind no part of which an item may
end, and then a semicolon or a block.  A text that has white space around one such item is
split into it.
-/

namespace ContractDoc

open Text

namespace Lexeme

/-- A text without quotes and without the marks that open comments. -/
structure OnlyCode (text : List Char) : Prop where
  noQuote : ∀ quote, IsQuote quote → quote ∉ text
  noLineComment : ¬ ['/', '/'] <:+: text
  noBlockComment : ¬ ['/', '*'] <:+: text

/-- The characters of a text without comments and quotes form a row. -/
theorem OnlyCode.row
    {text : List Char}
    (onlyCode : OnlyCode text) :
    Row (text.map code) none := by
  induction text with
  | nil => trivial
  | cons c text ih =>
    obtain ⟨noQuote, noLine, noBlock⟩ := onlyCode
    have later {mark : List Char} (absent : ¬ mark <:+: c :: text) : ¬ mark <:+: text :=
      mt (·.trans (List.suffix_cons c text).isInfix) absent
    have textOnlyCode : OnlyCode text :=
      ⟨fun quote isQuote member => noQuote quote isQuote (List.mem_cons_of_mem c member),
        later noLine, later noBlock⟩
    refine ⟨fun isQuote => noQuote c isQuote List.mem_cons_self, ?_, ih textOnlyCode⟩
    rintro rfl
    have raw_eq : (text.map code).flatMap raw = text := by
      simp [List.flatMap_map, raw]
    rw [raw_eq, Option.or_none]
    have starts {d : Char} (absent : ¬ ['/', d] <:+: '/' :: text) : text.head? ≠ some d := by
      intro next
      obtain ⟨rest, rfl⟩ := List.head?_eq_some_iff.1 next
      exact absent (List.IsPrefix.isInfix ⟨rest, rfl⟩)
    exact ⟨starts noLine, starts noBlock⟩

/-- Without slashes there are no comments. -/
theorem OnlyCode.of_notMem
    {text : List Char}
    (noSlash : '/' ∉ text)
    (noDouble : '"' ∉ text)
    (noSingle : '\'' ∉ text) :
    OnlyCode text where
  noQuote := by
    rintro quote (rfl | rfl)
    · exact noDouble
    · exact noSingle
  noLineComment held := noSlash (held.subset List.mem_cons_self)
  noBlockComment held := noSlash (held.subset List.mem_cons_self)

end Lexeme

namespace Glyph

theorem map_raw_kept (text : List Char) : (text.map kept).map raw = text := by
  simp [Function.comp_def]

theorem map_shown_kept (text : List Char) : (text.map kept).map shown = text := by
  simp [Function.comp_def]

end Glyph

/-- The text of an item of code is shown as it is. -/
theorem Item.shown_map_kept
    (start : Position)
    (text : List Char) :
    Item.shown ⟨start, text.map Glyph.kept⟩ = text :=
  Glyph.map_shown_kept text

/-- A text without comments and quotes stands in its skeleton as it is. -/
theorem glyphs_of_onlyCode
    {text : List Char}
    (onlyCode : Lexeme.OnlyCode text) :
    glyphs text = .ok (text.map Glyph.kept) := by
  refine glyphs_eq_ok_iff.2 ⟨text.map .code, Lexeme.read_eq_ok_iff.2 ⟨?_, onlyCode.row⟩, ?_⟩
  · simp [List.flatMap_map, Lexeme.raw]
  · simp [List.flatMap_map, Lexeme.glyphs, ← List.map_eq_flatMap]

namespace Item

/-! ## Items put together from parts -/

/-- The beginnings of two texts in a row are those of the first one, and the first one with a
beginning of the second. -/
theorem prefix_append_cases
    {part front back : List Char}
    (begins : part <+: front ++ back) :
    part <+: front ∨ ∃ later, later ≠ [] ∧ later <+: back ∧ part = front ++ later := by
  rcases List.prefix_or_prefix_of_prefix begins (List.prefix_append front back) with
    early | ⟨later, rfl⟩
  · exact .inl early
  · by_cases none : later = []
    · rw [none, List.append_nil]
      exact .inl List.prefix_rfl
    · exact .inr ⟨later, none, (List.prefix_append_right_inj front).1 begins, rfl⟩

/-- A nested text behind no part of which an item may end. -/
structure Steady (text : List Char) : Prop where
  nested : Bracket.Nested text
  goesOn : ∀ front, front <+: text → Bracket.Nested front →
    front.getLast? ≠ some ';' ∧ front.getLast? ≠ some '}'

/-- A nested text without blocks and semicolons. -/
structure Clear (text : List Char) : Prop where
  nested : Bracket.Nested text
  noBlock : '{' ∉ text
  noSemicolon : ';' ∉ text

/-- What ends an item: a semicolon or a block. -/
inductive Ending : List Char → Prop
  | semicolon : Ending [';']
  | block {inside : List Char}
      (nested : Bracket.Nested inside) :
      Ending ('{' :: (inside ++ ['}']))

namespace Steady

variable {front back inside : List Char}

theorem append
    (steady : Steady front)
    (backSteady : Steady back) :
    Steady (front ++ back) := by
  refine ⟨steady.nested.append backSteady.nested, ?_⟩
  intro part begins nested
  rcases prefix_append_cases begins with early | ⟨later, nonempty, laterBegins, rfl⟩
  · exact steady.goesOn part early nested
  · rw [List.getLast?_append_of_ne_nil _ nonempty]
    exact backSteady.goesOn later laterBegins (steady.nested.append_iff.1 nested)

/-- A pair of parentheses around a nested text is steady. -/
theorem parentheses
    (nested : Bracket.Nested inside) :
    Steady ('(' :: (inside ++ [')'])) := by
  refine ⟨nested.enclose rfl rfl, ?_⟩
  intro part begins partNested
  cases part with
  | nil => exact ⟨nofun, nofun⟩
  | cons c part =>
    obtain ⟨rfl, within⟩ := List.cons_prefix_cons.1 begins
    rcases List.prefix_concat_iff.1 within with rfl | early
    · rw [← List.cons_append, List.getLast?_concat]
      exact ⟨by decide, by decide⟩
    · exact absurd partNested (nested.not_nested_cons_of_prefix rfl early)

end Steady

namespace Clear

variable {front back inside : List Char}

theorem append
    (isClear : Clear front)
    (backIsClear : Clear back) :
    Clear (front ++ back) where
  nested := isClear.nested.append backIsClear.nested
  noBlock := List.not_mem_append isClear.noBlock backIsClear.noBlock
  noSemicolon := List.not_mem_append isClear.noSemicolon backIsClear.noSemicolon

/-- Texts of a class of characters without brackets and semicolons are clear. -/
theorem of_class
    {isIn : Char → Bool}
    (noBracket : ['(', ')', '[', ']', '{', '}'].any isIn = false)
    (noSemicolon : isIn ';' = false)
    (inside : ∀ c ∈ front, isIn c = true) :
    Clear front := by
  have plain (c : Char) (member : c ∈ front) :=
    Bracket.plain_of_class noBracket (inside c member)
  refine ⟨.of_forall plain, ?_, ?_⟩
  · intro member
    cases (plain _ member).1
  · intro member
    rw [inside _ member] at noSemicolon
    cases noSemicolon

theorem of_blank
    (blank : ∀ c ∈ front, isSpace c = true) :
    Clear front :=
  of_class (by decide) (by decide) blank

/-- A pair of parentheses around a clear text is clear. -/
theorem parentheses
    (isClear : Clear inside) :
    Clear ('(' :: (inside ++ [')'])) where
  nested := isClear.nested.enclose rfl rfl
  noBlock := by simp [isClear.noBlock]
  noSemicolon := by simp [isClear.noSemicolon]

/-- Without blocks no block is closed. -/
theorem noBlockClosed
    (isClear : Clear front) :
    '}' ∉ front := by
  obtain ⟨nested, noBlock, -⟩ := isClear
  induction nested with
  | nil => exact List.not_mem_nil
  | @plain c rest _ notClosing _ ih =>
    rw [List.mem_cons, not_or] at noBlock ⊢
    refine ⟨?_, ih noBlock.2⟩
    rintro rfl
    cases notClosing
  | @enclosed bracket opening closing inside rest opens closes _ _ withinIH tailIH =>
    simp only [List.mem_cons, List.mem_append, not_or] at noBlock ⊢
    obtain ⟨notBrace, insideNoBlock, -, restNoBlock⟩ := noBlock
    refine ⟨?_, withinIH insideNoBlock, ?_, tailIH restNoBlock⟩
    · rintro rfl
      cases opens
    · rintro rfl
      cases closes
      unfold Bracket.ofOpening? at opens
      split at opens
      · cases opens
      · cases opens
      · exact notBrace rfl
      · cases opens

/-- No item ends in a clear text. -/
theorem steady
    (isClear : Clear front) :
    Steady front := by
  refine ⟨isClear.nested, fun part begins _ => ⟨?_, ?_⟩⟩
  · intro last
    exact isClear.noSemicolon (begins.subset (List.mem_of_getLast? last))
  · intro last
    exact isClear.noBlockClosed (begins.subset (List.mem_of_getLast? last))

end Clear

/-- What ends an item begins with a brace or a semicolon. -/
theorem Ending.exists_cons
    {ending : List Char}
    (isEnding : Ending ending) :
    ∃ mark rest, ending = mark :: rest ∧ (mark = '{' ∨ mark = ';') := by
  cases isEnding with
  | semicolon => exact ⟨';', [], rfl, .inr rfl⟩
  | block => exact ⟨'{', _, rfl, .inl rfl⟩

/-- An item has a semicolon at its end exactly if it is ended by one. -/
theorem Ending.getLast?_append
    {ending : List Char}
    (isEnding : Ending ending)
    (front : List Char) :
    ((front ++ ending).getLast? == some ';') = (ending == [';']) := by
  cases isEnding with
  | semicolon =>
    rw [List.getLast?_concat]
    rfl
  | @block inside _ =>
    rw [← List.cons_append, ← List.append_assoc, List.getLast?_concat]
    rfl

/-- A text that ends an item is nested, it is not before its end, and an item may end behind
it. -/
theorem Ending.first
    {text ending : List Char}
    (isEnding : Ending ending)
    (notImport : ¬ "import".toList <+: text) :
    MayEndBehind text ending ∧
      ∀ part, part <+: ending → part ≠ [] → Bracket.Nested part → part = ending := by
  cases isEnding with
  | semicolon =>
    refine ⟨⟨.plain rfl rfl .nil, .inl rfl⟩, ?_⟩
    intro part begins nonempty _
    exact (List.prefix_concat_iff.1 begins).resolve_right
      fun none => nonempty (List.prefix_nil.1 none)
  | @block inside nested =>
    refine ⟨⟨nested.enclose rfl rfl, .inr ⟨?_, notImport⟩⟩, ?_⟩
    · rw [← List.cons_append, List.getLast?_concat]
    · intro part begins nonempty partNested
      obtain ⟨c, part, rfl⟩ := List.exists_cons_of_ne_nil nonempty
      obtain ⟨rfl, within⟩ := List.cons_prefix_cons.1 begins
      rcases List.prefix_concat_iff.1 within with rfl | early
      · rfl
      · exact absurd partNested (nested.not_nested_cons_of_prefix rfl early)

/-- A steady text and what ends an item make up an item. -/
theorem IsText.of_steady
    {front ending : List Char}
    (steady : Steady front)
    (isEnding : Ending ending)
    (starts : ∀ c ∈ (front ++ ending).head?, isSpace c = false)
    (notImport : ¬ "import".toList <+: front ++ ending) :
    IsText (front ++ ending) := by
  obtain ⟨⟨nested, last⟩, first⟩ := isEnding.first notImport
  have nonempty : ending ≠ [] := by
    cases isEnding <;> exact List.cons_ne_nil _ _
  refine ⟨starts, ⟨steady.nested.append nested, ?_⟩, ?_⟩
  · rw [List.getLast?_append_of_ne_nil _ nonempty]
    exact last
  · intro part begins mayEnd
    rcases prefix_append_cases begins with early | ⟨later, laterNonempty, laterBegins, rfl⟩
    · obtain ⟨noSemicolon, noBrace⟩ := steady.goesOn part early mayEnd.1
      exact absurd mayEnd.2 (not_or.2 ⟨noSemicolon, fun brace => noBrace brace.1⟩)
    · rw [first later laterBegins laterNonempty (steady.nested.append_iff.1 mayEnd.1)]

/-- A clear text that begins unlike the word `import`, and what ends an item, make up an item. -/
theorem IsText.of_clear
    {front ending : List Char} {first : Char}
    (isClear : Clear front)
    (isEnding : Ending ending)
    (head_eq : front.head? = some first)
    (visible : isSpace first = false)
    (other : first ≠ 'i') :
    IsText (front ++ ending) := by
  obtain ⟨rest, rfl⟩ := List.head?_eq_some_iff.1 head_eq
  refine .of_steady isClear.steady isEnding ?_ ?_
  · rintro _ ⟨⟩
    exact visible
  · rintro ⟨behind, same⟩
    exact other (List.cons.inj same).1.symm

/-- A text and a semicolon make up an item if it may end nowhere before. -/
theorem IsText.of_semicolon
    {front : List Char}
    (nested : Bracket.Nested front)
    (starts : ∀ c ∈ (front ++ [';']).head?, isSpace c = false)
    (goesOn : ∀ part, part <+: front → ¬ MayEndBehind (front ++ [';']) part) :
    IsText (front ++ [';']) := by
  refine ⟨starts, ⟨nested.append (.plain rfl rfl .nil), .inl (by simp)⟩, ?_⟩
  intro part begins mayEnd
  rcases List.prefix_concat_iff.1 begins with rfl | early
  · rfl
  · exact absurd mayEnd (goesOn part early)

end Item

namespace Cut

/-- White space is cut into no items. -/
theorem of_blank
    {blank : List Char}
    (isBlank : ∀ c ∈ blank, isSpace c = true)
    (position : Position) :
    Cut position (blank.map Glyph.kept) [] := by
  rw [← List.append_nil (blank.map Glyph.kept)]
  exact .of_space (by simpa using isBlank) .nil

/-- A text of code that begins with one item behind white space is cut behind it. -/
theorem cons_kept
    {lead text rest : List Char} {items : List Item} {position : Position}
    (leadBlank : ∀ c ∈ lead, isSpace c = true)
    (isText : Item.IsText text)
    (behind : Cut ((position.advanceBy lead).advanceBy text) (rest.map Glyph.kept) items) :
    Cut position ((lead ++ (text ++ rest)).map Glyph.kept)
      (⟨position.advanceBy lead, text.map Glyph.kept⟩ :: items) := by
  have complete : Item.Complete ⟨position.advanceBy lead, text.map Glyph.kept⟩ := by
    rw [Item.complete_iff, Item.shown, Glyph.map_shown_kept]
    exact isText
  rw [List.map_append, List.map_append]
  refine .of_space (by simpa using leadBlank) ?_
  rw [Glyph.map_raw_kept]
  refine .item complete ?_
  rwa [Item.raw, Glyph.map_raw_kept]

end Cut

/-- A text of code that holds one item between white space is split into it. -/
theorem splitItems_single
    {lead text trail : List Char}
    (leadBlank : ∀ c ∈ lead, isSpace c = true)
    (isText : Item.IsText text)
    (trailBlank : ∀ c ∈ trail, isSpace c = true)
    (position : Position) :
    splitItems position ((lead ++ (text ++ trail)).map Glyph.kept) =
      .ok [⟨position.advanceBy lead, text.map Glyph.kept⟩] :=
  splitItems_eq_ok_iff_cut.2 (.cons_kept leadBlank isText (.of_blank trailBlank _))

end ContractDoc
