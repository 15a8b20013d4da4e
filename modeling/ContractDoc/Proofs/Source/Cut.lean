import ContractDoc.Proofs.Source.Splitter

/-!
# Texts cut into items

What it means that a text is cut into items: between them there is white space
only, and each of them starts at another character and runs to the first place
where it may end.  The items of a text that is split are such a cut.  They follow
one another, they are parts of the text at the places that they name, and their
brackets are nested.
-/

namespace ContractDoc

open Text

namespace Draft

/-- How an item goes on from a draft to the first place where it may end. -/
inductive Completes : Draft → List Glyph → Prop
  | ends {draft : Draft} {glyph : Glyph} {unclosed : List Bracket}
      (tracked : Bracket.track draft.unclosed glyph.shown = some unclosed)
      (ends : draft.EndsBehind glyph unclosed) :
      Completes draft [glyph]
  | goesOn {draft : Draft} {glyph : Glyph} {unclosed : List Bracket} {more : List Glyph}
      (tracked : Bracket.track draft.unclosed glyph.shown = some unclosed)
      (goesOn : ¬ draft.EndsBehind glyph unclosed)
      (rest : Completes { draft.push glyph with unclosed := unclosed } more) :
      Completes draft (glyph :: more)

theorem Completes.ne_nil
    {draft : Draft} {glyphs : List Glyph}
    (completes : draft.Completes glyphs) :
    glyphs ≠ [] := by
  cases completes <;> exact List.cons_ne_nil _ _

/-- The brackets of an item are nested. -/
theorem Completes.nested
    {draft : Draft} {glyphs : List Glyph}
    (completes : draft.Completes glyphs) :
    (glyphs.map Glyph.shown).foldlM Bracket.track draft.unclosed = some [] := by
  induction completes with
  | ends tracked ends =>
    rw [List.map_singleton, List.foldlM_cons, tracked, ends.1]
    rfl
  | goesOn tracked _ _ ih =>
    rw [List.map_cons, List.foldlM_cons, tracked]
    exact ih

end Draft

/-- Characters of a class without brackets open and close none. -/
theorem Bracket.plain_of_class
    {isIn : Char → Bool} {c : Char}
    (without : ['(', ')', '[', ']', '{', '}'].any isIn = false)
    (inside : isIn c = true) :
    ofOpening? c = none ∧ ofClosing? c = none := by
  have notListed : c ∉ ['(', ')', '[', ']', '{', '}'] :=
    fun listed => List.any_eq_false.1 without c listed inside
  simp only [List.mem_cons, List.not_mem_nil, or_false, not_or] at notListed
  constructor
  · unfold ofOpening?
    split <;> simp_all
  · unfold ofClosing?
    split <;> simp_all

/-- White space opens and closes no brackets. -/
theorem Bracket.track_of_isSpace
    {c : Char} (space : isSpace c = true) (unclosed : List Bracket) :
    track unclosed c = some unclosed := by
  obtain ⟨opens, closes⟩ := plain_of_class (by decide) space
  rw [track, opens, closes]

/-- An item that starts at a character other than white space and runs to the
first place where it may end. -/
structure Item.Complete (item : Item) : Prop where
  starts : ∀ glyph ∈ item.glyphs.head?, isSpace glyph.shown = false
  completes : Draft.Completes ⟨item.start, [], []⟩ item.glyphs

/-- A text that starts at a position, cut into complete items with white space
around them. -/
inductive Cut : Position → List Glyph → List Item → Prop
  | nil {position : Position} : Cut position [] []
  | blank {position : Position} {glyph : Glyph} {glyphs : List Glyph} {items : List Item}
      (space : isSpace glyph.shown = true)
      (rest : Cut (position.advance glyph.raw) glyphs items) :
      Cut position (glyph :: glyphs) items
  | item {item : Item} {glyphs : List Glyph} {items : List Item}
      (complete : item.Complete)
      (rest : Cut (item.start.advanceBy item.raw) glyphs items) :
      Cut item.start (item.glyphs ++ glyphs) (item :: items)

namespace Splitter

/-- What a splitter finds in the text behind it while it reads an item, when `all`
are its items at the end: the item is completed, and the rest of the text is cut. -/
def FindsEnd (splitter : Splitter) (draft : Draft) (glyphs : List Glyph) (all : List Item) :
    Prop :=
  ∃ more rest items, glyphs = more ++ rest ∧ draft.Completes more ∧
    all = splitter.items.reverse ++ ⟨draft.start, draft.taken.reverse ++ more⟩ :: items ∧
      Cut (splitter.position.advanceBy (more.map Glyph.raw)) rest items

/-- What a splitter finds in the text behind it when `all` are its items at the
end. -/
def Finds (splitter : Splitter) (glyphs : List Glyph) (all : List Item) : Prop :=
  match splitter.draft with
  | none =>
      ∃ items, all = splitter.items.reverse ++ items ∧ Cut splitter.position glyphs items
  | some draft => splitter.FindsEnd draft glyphs all

/-- A splitter inside an item finds the rest of the item if it does so behind the
next character. -/
theorem findsEnd_of_extend
    {splitter next : Splitter} {draft : Draft} {glyph : Glyph} {glyphs : List Glyph}
    {all : List Item}
    (extended : splitter.extend draft glyph = .ok next)
    (finds : next.Finds glyphs all) :
    splitter.FindsEnd draft (glyph :: glyphs) all := by
  obtain ⟨unclosed, tracked, ⟨ends, rfl⟩ | ⟨goesOn, rfl⟩⟩ := extend_eq_ok_iff.1 extended
  · obtain ⟨items, rfl, cut⟩ := finds
    refine ⟨[glyph], glyphs, items, rfl, .ends tracked ends, ?_, cut⟩
    simp [close, Draft.push, Draft.toItem]
  · obtain ⟨more, rest, items, rfl, completes, rfl, cut⟩ := finds
    refine ⟨glyph :: more, rest, items, rfl, .goesOn tracked goesOn completes, ?_, cut⟩
    simp [goOn, Draft.push]

/-- What is found behind a character is found before it. -/
theorem finds_of_step
    {splitter next : Splitter} {glyph : Glyph} {glyphs : List Glyph} {all : List Item}
    (stepped : splitter.step glyph = .ok next)
    (finds : next.Finds glyphs all) :
    splitter.Finds (glyph :: glyphs) all := by
  rcases splitter with ⟨position, draft, items⟩
  cases draft with
  | some draft =>
    rw [step_of_draft_eq_some rfl] at stepped
    exact findsEnd_of_extend stepped finds
  | none =>
    rw [step_of_draft_eq_none rfl] at stepped
    split at stepped
    · next space =>
      cases stepped
      obtain ⟨found, rfl, cut⟩ := finds
      exact ⟨found, rfl, .blank space cut⟩
    · next notSpace =>
      obtain ⟨more, rest, found, split, completes, rfl, cut⟩ :=
        findsEnd_of_extend stepped finds
      have starts : ∀ first ∈ more.head?, isSpace first.shown = false := by
        intro first head
        obtain ⟨tail, rfl⟩ := List.head?_eq_some_iff.1 head
        obtain ⟨rfl, -⟩ := List.cons.inj split
        exact Bool.eq_false_iff.2 notSpace
      have cutItem : Cut position (more ++ rest) (⟨position, more⟩ :: found) :=
        @Cut.item ⟨position, more⟩ rest found ⟨starts, completes⟩ cut
      rw [← split] at cutItem
      exact ⟨_, rfl, cutItem⟩

/-- A splitter that ends between two items has found a cut.  The cut is built from the end of
the text, where nothing is left to find. -/
theorem finds_of_foldlM
    {splitter last : Splitter} {glyphs : List Glyph}
    (run : glyphs.foldlM step splitter = .ok last)
    (idle : last.draft = none) :
    splitter.Finds glyphs last.items.reverse := by
  induction glyphs generalizing splitter with
  | nil =>
    cases run
    unfold Finds
    rw [idle]
    exact ⟨[], by simp, .nil⟩
  | cons glyph glyphs ih =>
    rw [List.foldlM_cons] at run
    obtain ⟨next, stepped, run⟩ := bind_eq_ok.1 run
    exact finds_of_step stepped (ih run)

end Splitter

/-- A text that is split is cut into its items. -/
theorem cut_of_splitItems
    {position : Position} {glyphs : List Glyph} {items : List Item}
    (split : splitItems position glyphs = .ok items) :
    Cut position glyphs items := by
  obtain ⟨splitter, run, idle, rfl⟩ := splitItems_eq_ok_iff.1 split
  obtain ⟨items, same, cut⟩ := Splitter.finds_of_foldlM run idle
  rw [same]
  exact cut

/-- A part of a text.  The text starts at `position` and the part at `start`. -/
def PartOf (position : Position) (glyphs : List Glyph) (start : Position) (part : List Glyph) :
    Prop :=
  ∃ before after, glyphs = before ++ (part ++ after) ∧
    start = position.advanceBy (before.map Glyph.raw)

namespace PartOf

variable {position start inner : Position} {glyphs part smaller : List Glyph}

/-- A part of a part is a part. -/
theorem trans
    (outer : PartOf position glyphs start part)
    (within : PartOf start part inner smaller) :
    PartOf position glyphs inner smaller := by
  obtain ⟨before, after, rfl, rfl⟩ := outer
  obtain ⟨front, back, rfl, rfl⟩ := within
  refine ⟨before ++ front, back ++ after, by simp, ?_⟩
  rw [List.map_append, Position.advanceBy_append]

theorem offset_le
    (partOf : PartOf position glyphs start part) :
    position.offset ≤ start.offset ∧
      start.offset + part.length ≤ position.offset + glyphs.length := by
  obtain ⟨before, after, rfl, rfl⟩ := partOf
  rw [Position.offset_advanceBy]
  simp only [List.length_append, List.length_map]
  omega

theorem mem
    {glyph : Glyph}
    (partOf : PartOf position glyphs start part)
    (member : glyph ∈ part) :
    glyph ∈ glyphs := by
  obtain ⟨before, after, rfl, -⟩ := partOf
  simp [member]

/-- The start of a part of a file counts the characters and the lines before it. -/
theorem exists_before
    (partOf : PartOf .origin glyphs start part) :
    ∃ before after, glyphs = before ++ (part ++ after) ∧ start.offset = before.length ∧
      start.line = 1 + (before.map Glyph.raw).count '\n' := by
  obtain ⟨before, after, rfl, rfl⟩ := partOf
  refine ⟨before, after, rfl, ?_, Position.line_advanceBy _ _⟩
  rw [Position.offset_advanceBy, List.length_map]
  exact Nat.zero_add _

/-- A part of a file is found again at the offset of its start. -/
theorem prefix_drop
    {γ : Type} (partOf : PartOf .origin glyphs start part) (view : Glyph → γ) :
    part.map view <+: (glyphs.map view).drop start.offset := by
  obtain ⟨before, after, rfl, offset, -⟩ := partOf.exists_before
  rw [offset, ← List.length_map view, List.map_append, List.drop_left, List.map_append]
  exact List.prefix_append _ _

/-- The line of a part of a file is one more than the number of lines that end
before it. -/
theorem line_eq
    (partOf : PartOf .origin glyphs start part) :
    start.line = 1 + ((glyphs.map Glyph.raw).take start.offset).count '\n' := by
  obtain ⟨before, after, rfl, offset, line⟩ := partOf.exists_before
  rw [line, offset, ← List.length_map Glyph.raw, List.map_append, List.take_left]

end PartOf

namespace Cut

variable {position : Position} {glyphs : List Glyph} {items : List Item}

/-- The brackets of a text that is cut are nested. -/
theorem nested
    (cut : Cut position glyphs items) :
    (glyphs.map Glyph.shown).foldlM Bracket.track [] = some [] := by
  induction cut with
  | nil => rfl
  | blank space _ ih =>
    rw [List.map_cons, List.foldlM_cons, Bracket.track_of_isSpace space]
    exact ih
  | item complete _ ih =>
    rw [List.map_append, List.foldlM_append, complete.completes.nested]
    exact ih

/-- The items of a text are complete parts of it. -/
theorem complete_partOf
    (cut : Cut position glyphs items) :
    ∀ item ∈ items, item.Complete ∧ PartOf position glyphs item.start item.glyphs := by
  induction cut with
  | nil => exact nofun
  | @blank position glyph glyphs items _ _ ih =>
    intro item member
    obtain ⟨complete, before, after, rfl, start⟩ := ih item member
    exact ⟨complete, glyph :: before, after, rfl, start⟩
  | @item first glyphs items complete _ ih =>
    intro item member
    rcases List.mem_cons.1 member with rfl | member
    · exact ⟨complete, [], glyphs, rfl, rfl⟩
    · obtain ⟨complete, before, after, rfl, start⟩ := ih item member
      refine ⟨complete, first.glyphs ++ before, after, by simp, ?_⟩
      rw [start, List.map_append, Position.advanceBy_append]
      rfl

/-- The items of a text follow one another. -/
theorem pairwise
    (cut : Cut position glyphs items) :
    items.Pairwise fun first second =>
      first.start.offset < first.stop ∧ first.stop ≤ second.start.offset := by
  induction cut with
  | nil => exact .nil
  | blank _ _ ih => exact ih
  | @item first glyphs items complete rest ih =>
    refine .cons ?_ ih
    intro second member
    have nonempty := List.length_pos_iff.2 complete.completes.ne_nil
    obtain ⟨behind, -⟩ := (rest.complete_partOf second member).2.offset_le
    rw [Position.offset_advanceBy, Item.raw, List.length_map] at behind
    exact ⟨Nat.lt_add_of_pos_right nonempty, behind⟩

end Cut
end ContractDoc
