import ContractDoc.Proofs.Source.Cut
import ContractDoc.Proofs.Source.Nested

/-!
# The items of a text, exactly

What an item is, said of its text alone: it starts at a character other than white space,
its brackets are nested, and it ends at the first place where it may end.  A text is split
exactly if its brackets are nested and nothing but white space is left behind its last
item, and then the items are the only ones into which it can be divided.
-/

namespace ContractDoc

open Text

namespace Item

/-- Whether an item with the given text may end behind its part `front`: no bracket is open
there, and the last character is a semicolon, or a closing brace and the item is no import. -/
def MayEndBehind (text front : List Char) : Prop :=
  Bracket.Nested front ∧
    (front.getLast? = some ';' ∨
      front.getLast? = some '}' ∧ ¬ "import".toList <+: text)

/-- The text of one item. -/
structure IsText (text : List Char) : Prop where
  starts : ∀ c ∈ text.head?, isSpace c = false
  ends : MayEndBehind text text
  /-- The item ends nowhere before. -/
  first : ∀ front, front <+: text → MayEndBehind text front → front = text

/-- A closing brace is no part of the word at the start of imports, so what stands up to it
tells whether a text is an import. -/
theorem import_prefix_iff
    {text front : List Char}
    (begins : front ++ ['\x7d'] <+: text) :
    "import".toList <+: front ++ ['\x7d'] ↔ "import".toList <+: text := by
  constructor
  · exact fun early => early.trans begins
  · intro isImport
    rcases List.prefix_or_prefix_of_prefix isImport begins with early | late
    · exact early
    · have brace : '\x7d' ∈ "import".toList := late.subset (by simp)
      have noBrace : '\x7d' ∉ "import".toList := by decide
      exact absurd brace noBrace

end Item

namespace Draft

variable {draft : Draft} {glyph : Glyph} {unclosed : List Bracket}

theorem shown_toItem_push (draft : Draft) (glyph : Glyph) :
    (draft.push glyph).toItem.shown = draft.toItem.shown ++ [glyph.shown] := by
  simp [push, toItem, Item.shown]

/-- An item ends behind a character exactly if it may end behind the text up to there. -/
theorem endsBehind_iff
    {text : List Char}
    (followed : draft.toItem.shown.foldlM Bracket.track [] = some draft.unclosed)
    (tracked : Bracket.track draft.unclosed glyph.shown = some unclosed)
    (begins : draft.toItem.shown ++ [glyph.shown] <+: text) :
    draft.EndsBehind glyph unclosed ↔
      Item.MayEndBehind text (draft.toItem.shown ++ [glyph.shown]) := by
  have closed : Bracket.Nested (draft.toItem.shown ++ [glyph.shown]) ↔ unclosed = [] := by
    rw [Bracket.nested_iff_foldlM_track, List.foldlM_append, followed, Option.bind_eq_bind,
      Option.bind_some, List.foldlM_cons, tracked]
    simp
  have ending : (draft.push glyph).isImport = false ↔
      ¬ "import".toList <+: draft.toItem.shown ++ [glyph.shown] := by
    rw [isImport, shown_toItem_push, Bool.eq_false_iff, ne_eq, List.isPrefixOf_iff_prefix]
  rw [EndsBehind, Item.MayEndBehind, closed, List.getLast?_concat, Option.some_inj,
    Option.some_inj, ending]
  refine and_congr_right fun _ => or_congr_right (and_congr_right fun brace => not_congr ?_)
  rw [brace] at begins ⊢
  exact Item.import_prefix_iff begins

/-- The draft behind a character that leaves the brackets of `unclosed` open. -/
theorem followed_push
    (followed : draft.toItem.shown.foldlM Bracket.track [] = some draft.unclosed)
    (tracked : Bracket.track draft.unclosed glyph.shown = some unclosed) :
    (draft.push glyph).toItem.shown.foldlM Bracket.track [] = some unclosed := by
  rw [shown_toItem_push, List.foldlM_append, followed, Option.bind_eq_bind, Option.bind_some,
    List.foldlM_cons, tracked]
  rfl

/-- Where a draft is completed the item may end, and it may end nowhere before. -/
theorem Completes.first
    {glyphs : List Glyph} {text : List Char}
    (completes : draft.Completes glyphs)
    (followed : draft.toItem.shown.foldlM Bracket.track [] = some draft.unclosed)
    (whole : draft.toItem.shown ++ glyphs.map Glyph.shown = text) :
    Item.MayEndBehind text text ∧
      ∀ front, front <+: glyphs.map Glyph.shown → front ≠ [] →
        Item.MayEndBehind text (draft.toItem.shown ++ front) →
          front = glyphs.map Glyph.shown := by
  induction completes with
  | @ends draft glyph unclosed tracked ends =>
    rw [List.map_singleton] at whole ⊢
    subst whole
    refine ⟨(endsBehind_iff followed tracked List.prefix_rfl).1 ends, ?_⟩
    intro front begins nonempty _
    obtain ⟨c, front, rfl⟩ := List.exists_cons_of_ne_nil nonempty
    obtain ⟨rfl, short⟩ := List.cons_prefix_cons.1 begins
    rw [List.prefix_nil.1 short]
  | @goesOn draft glyph unclosed more tracked goesOn _ ih =>
    have wholeNext : (draft.push glyph).toItem.shown ++ more.map Glyph.shown = text := by
      rw [shown_toItem_push, List.append_assoc]
      exact whole
    have begins : draft.toItem.shown ++ [glyph.shown] <+: text := by
      rw [← shown_toItem_push]
      exact ⟨_, wholeNext⟩
    obtain ⟨mayEnd, first⟩ := ih (followed_push followed tracked) wholeNext
    refine ⟨mayEnd, ?_⟩
    intro front front_prefix nonempty ended
    obtain ⟨c, front, rfl⟩ := List.exists_cons_of_ne_nil nonempty
    obtain ⟨rfl, later⟩ := List.cons_prefix_cons.1 front_prefix
    by_cases short : front = []
    · subst short
      exact absurd ((endsBehind_iff followed tracked begins).2 ended) goesOn
    · have endedLater : Item.MayEndBehind text ((draft.push glyph).toItem.shown ++ front) := by
        rw [shown_toItem_push, List.append_assoc]
        exact ended
      exact congrArg (glyph.shown :: ·) (first front later short endedLater)

/-- A draft is completed at the first place where the item may end. -/
theorem completes_of_mayEndBehind
    {glyphs : List Glyph} {text : List Char}
    (followed : draft.toItem.shown.foldlM Bracket.track [] = some draft.unclosed)
    (whole : draft.toItem.shown ++ glyphs.map Glyph.shown = text)
    (nonempty : glyphs ≠ [])
    (mayEnd : Item.MayEndBehind text text)
    (first : ∀ front, front <+: glyphs.map Glyph.shown → front ≠ [] →
      Item.MayEndBehind text (draft.toItem.shown ++ front) → front = glyphs.map Glyph.shown) :
    draft.Completes glyphs := by
  induction glyphs generalizing draft with
  | nil => exact absurd rfl nonempty
  | cons glyph glyphs ih =>
    have nested := Bracket.nested_iff_foldlM_track.1 mayEnd.1
    rw [← whole, List.foldlM_append, followed, Option.bind_eq_bind, Option.bind_some,
      List.map_cons, List.foldlM_cons] at nested
    obtain ⟨unclosed, tracked, -⟩ := Option.bind_eq_some_iff.1 nested
    have wholeNext : (draft.push glyph).toItem.shown ++ glyphs.map Glyph.shown = text := by
      rw [shown_toItem_push, List.append_assoc]
      exact whole
    have begins : draft.toItem.shown ++ [glyph.shown] <+: text := by
      rw [← shown_toItem_push]
      exact ⟨_, wholeNext⟩
    have ends_iff := endsBehind_iff followed tracked begins
    by_cases ends : draft.EndsBehind glyph unclosed
    · have only := first [glyph.shown] (List.cons_prefix_cons.2 ⟨rfl, List.nil_prefix⟩)
        (List.cons_ne_nil _ _) (ends_iff.1 ends)
      obtain rfl : glyphs = [] := List.map_eq_nil_iff.1 (List.cons.inj only).2.symm
      exact .ends tracked ends
    · have more : glyphs ≠ [] := by
        rintro rfl
        rw [← shown_toItem_push] at ends_iff
        rw [List.map_nil, List.append_nil] at wholeNext
        rw [wholeNext] at ends_iff
        exact ends (ends_iff.2 mayEnd)
      refine .goesOn tracked ends (ih (followed_push followed tracked) wholeNext more ?_)
      intro front later _ ended
      have endedHere : Item.MayEndBehind text (draft.toItem.shown ++ glyph.shown :: front) := by
        rw [← List.singleton_append, ← List.append_assoc, ← shown_toItem_push]
        exact ended
      exact (List.cons.inj (first (glyph.shown :: front) (List.cons_prefix_cons.2 ⟨rfl, later⟩)
        (List.cons_ne_nil _ _) endedHere)).2

end Draft

namespace Item

/-- A text behind which an item may end is not empty. -/
theorem MayEndBehind.ne_nil
    {text front : List Char}
    (mayEnd : MayEndBehind text front) :
    front ≠ [] := by
  rintro rfl
  rcases mayEnd.2 with none | ⟨none, -⟩ <;> cases none

/-- The items that are read are those with the text of an item. -/
theorem complete_iff {item : Item} : item.Complete ↔ IsText item.shown := by
  have starts_iff : (∀ glyph ∈ item.glyphs.head?, isSpace glyph.shown = false) ↔
      ∀ c ∈ item.shown.head?, isSpace c = false := by
    rw [shown, List.head?_map]
    simp
  constructor
  · rintro ⟨starts, completes⟩
    obtain ⟨mayEnd, first⟩ := completes.first rfl rfl
    exact ⟨starts_iff.1 starts, mayEnd, fun front begins ended =>
      first front begins ended.ne_nil ended⟩
  · rintro ⟨starts, mayEnd, first⟩
    have nonempty : item.glyphs ≠ [] := fun none => mayEnd.ne_nil (List.map_eq_nil_iff.2 none)
    exact ⟨starts_iff.2 starts, Draft.completes_of_mayEndBehind rfl rfl nonempty mayEnd
      fun front begins _ ended => first front begins ended⟩

end Item

/-! ## What is cut is split -/

namespace Splitter

/-- A splitter that reads on from a draft reads the item that completes it. -/
theorem foldlM_step_of_completes
    {draft : Draft} {glyphs : List Glyph}
    (completes : draft.Completes glyphs)
    (splitter : Splitter)
    (reads : ∀ glyph ∈ glyphs.head?, splitter.step glyph = splitter.extend draft glyph) :
    glyphs.foldlM step splitter =
      .ok ⟨splitter.position.advanceBy (glyphs.map Glyph.raw), none,
        ⟨draft.start, draft.taken.reverse ++ glyphs⟩ :: splitter.items⟩ := by
  induction completes generalizing splitter with
  | @ends draft glyph unclosed tracked ends =>
    have extended : splitter.extend draft glyph = .ok (splitter.close glyph (draft.push glyph)) :=
      extend_eq_ok_iff.2 ⟨unclosed, tracked, .inl ⟨ends, rfl⟩⟩
    rw [List.foldlM_cons, reads glyph rfl, extended, ← List.reverse_cons]
    rfl
  | @goesOn draft glyph unclosed more tracked goesOn _ ih =>
    have extended : splitter.extend draft glyph =
        .ok (splitter.goOn glyph { draft.push glyph with unclosed := unclosed }) :=
      extend_eq_ok_iff.2 ⟨unclosed, tracked, .inr ⟨goesOn, rfl⟩⟩
    have readRest := ih (splitter.goOn glyph { draft.push glyph with unclosed := unclosed })
      fun next _ => step_of_draft_eq_some rfl next
    rw [List.foldlM_cons, reads glyph rfl, extended]
    refine readRest.trans ?_
    simp [goOn, Draft.push]

/-- A splitter between two items reads the items into which the text behind it is cut. -/
theorem foldlM_step_of_cut
    {position : Position} {glyphs : List Glyph} {items : List Item}
    (cut : Cut position glyphs items)
    (before : List Item) :
    glyphs.foldlM step ⟨position, none, before⟩ =
      .ok ⟨position.advanceBy (glyphs.map Glyph.raw), none, items.reverse ++ before⟩ := by
  induction cut generalizing before with
  | nil => rfl
  | @blank position glyph glyphs items space _ ih =>
    rw [List.foldlM_cons, step_of_draft_eq_none rfl, if_pos space]
    exact ih before
  | @item item glyphs items complete _ ih =>
    have reads : ∀ glyph ∈ item.glyphs.head?, step ⟨item.start, none, before⟩ glyph =
        extend ⟨item.start, none, before⟩ ⟨item.start, [], []⟩ glyph := by
      intro glyph head
      have notSpace : ¬ isSpace glyph.shown = true := by
        rw [complete.starts glyph head]
        exact Bool.false_ne_true
      rw [step_of_draft_eq_none rfl, if_neg notSpace]
    rw [List.foldlM_append, foldlM_step_of_completes complete.completes _ reads]
    refine (ih (item :: before)).trans ?_
    rw [List.map_append, Position.advanceBy_append, List.reverse_cons, List.append_assoc]
    rfl

end Splitter

/-- A text is split into items exactly if it is cut into them. -/
theorem splitItems_eq_ok_iff_cut
    {position : Position} {glyphs : List Glyph} {items : List Item} :
    splitItems position glyphs = .ok items ↔ Cut position glyphs items := by
  constructor
  · exact cut_of_splitItems
  · intro cut
    have run := Splitter.foldlM_step_of_cut cut []
    exact splitItems_eq_ok_iff.2 ⟨_, run, rfl, by simp⟩

/-! ## Texts divided into items -/

/-- A text that starts at `position`, divided into items: they are parts of it that follow
one another and hold all of its characters other than white space. -/
structure Divides (position : Position) (glyphs : List Glyph) (items : List Item) : Prop where
  partOf : ∀ item ∈ items, PartOf position glyphs item.start item.glyphs
  ordered : items.Pairwise fun first second => first.stop ≤ second.start.offset
  covers : ∀ index glyph, glyphs[index]? = some glyph → isSpace glyph.shown = false →
    ∃ item ∈ items, item.start.offset ≤ position.offset + index ∧
      position.offset + index < item.stop
  isText : ∀ item ∈ items, Item.IsText item.shown

namespace Cut

variable {position : Position} {glyphs : List Glyph} {items : List Item}

/-- White space may stand before a text that is cut. -/
theorem of_space
    {blank : List Glyph}
    (space : ∀ glyph ∈ blank, isSpace glyph.shown = true)
    (cut : Cut (position.advanceBy (blank.map Glyph.raw)) glyphs items) :
    Cut position (blank ++ glyphs) items := by
  induction blank generalizing position with
  | nil => exact cut
  | cons glyph blank ih =>
    obtain ⟨first, rest⟩ := List.forall_mem_cons.1 space
    exact .blank first (ih rest cut)

/-- The items of a text hold all of its characters other than white space. -/
theorem covers
    (cut : Cut position glyphs items)
    {index : Nat} {glyph : Glyph}
    (at_index : glyphs[index]? = some glyph)
    (notSpace : isSpace glyph.shown = false) :
    ∃ item ∈ items, item.start.offset ≤ position.offset + index ∧
      position.offset + index < item.stop := by
  induction cut generalizing index with
  | nil => cases at_index
  | @blank position first glyphs items space _ ih =>
    cases index with
    | zero =>
      obtain rfl := Option.some.inj at_index
      rw [space] at notSpace
      cases notSpace
    | succ index =>
      obtain ⟨item, member, starts, stops⟩ := ih at_index
      have next : (position.advance first.raw).offset = position.offset + 1 := rfl
      exact ⟨item, member, by omega, by omega⟩
  | @item first glyphs items _ _ ih =>
    by_cases within : index < first.glyphs.length
    · exact ⟨first, List.mem_cons_self, Nat.le_add_right _ _, Nat.add_lt_add_left within _⟩
    · rw [List.getElem?_append_right (Nat.le_of_not_lt within)] at at_index
      obtain ⟨item, member, starts, stops⟩ := ih at_index
      rw [Position.offset_advanceBy, Item.raw, List.length_map] at starts stops
      exact ⟨item, List.mem_cons_of_mem _ member, by omega, by omega⟩

/-- A text that is cut is divided into its items. -/
theorem divides (cut : Cut position glyphs items) : Divides position glyphs items where
  partOf item member := (cut.complete_partOf item member).2
  ordered := cut.pairwise.imp fun follows => follows.2
  covers _ _ at_index notSpace := cut.covers at_index notSpace
  isText item member := Item.complete_iff.1 (cut.complete_partOf item member).1

end Cut

namespace Divides

variable {position : Position} {glyphs : List Glyph} {items : List Item}

/-- Before the first of the items stands white space only, and the rest of the items divide
the text behind it. -/
theorem cons
    {first : Item}
    (divides : Divides position glyphs (first :: items)) :
    ∃ blank rest, glyphs = blank ++ (first.glyphs ++ rest) ∧
      first.start = position.advanceBy (blank.map Glyph.raw) ∧
      (∀ glyph ∈ blank, isSpace glyph.shown = true) ∧
      Divides (first.start.advanceBy first.raw) rest items := by
  obtain ⟨blank, rest, rfl, start⟩ := divides.partOf first List.mem_cons_self
  obtain ⟨behind, ordered⟩ := List.pairwise_cons.1 divides.ordered
  have offset : first.start.offset = position.offset + blank.length := by
    rw [start, Position.offset_advanceBy, List.length_map]
  have next : (first.start.advanceBy first.raw).offset =
      position.offset + blank.length + first.glyphs.length := by
    rw [Position.offset_advanceBy, Item.raw, List.length_map, offset]
  have stop : first.stop = position.offset + blank.length + first.glyphs.length := by
    rw [Item.stop, offset]
  refine ⟨blank, rest, rfl, start, ?_, ?_, ordered, ?_, ?_⟩
  · intro glyph member
    by_contra notSpace
    obtain ⟨index, inside, rfl⟩ := List.getElem_of_mem member
    have at_index : (blank ++ (first.glyphs ++ rest))[index]? = some blank[index] := by
      rw [List.getElem?_append_left inside, List.getElem?_eq_getElem inside]
    obtain ⟨item, listed, starts, -⟩ :=
      divides.covers index _ at_index (Bool.eq_false_iff.2 notSpace)
    rcases List.mem_cons.1 listed with rfl | later
    · omega
    · have follows := behind item later
      omega
  · intro item member
    obtain ⟨before, after, whole, itemStart⟩ := divides.partOf item (List.mem_cons_of_mem _ member)
    have itemOffset : item.start.offset = position.offset + before.length := by
      rw [itemStart, Position.offset_advanceBy, List.length_map]
    have follows := behind item member
    have long : (blank ++ first.glyphs).length ≤ before.length := by
      rw [List.length_append]
      omega
    rw [← List.append_assoc] at whole
    obtain ⟨between, rfl⟩ :=
      List.prefix_of_prefix_length_le ⟨rest, rfl⟩ ⟨_, whole.symm⟩ long
    rw [List.append_assoc _ between] at whole
    refine ⟨between, after, List.append_cancel_left whole, ?_⟩
    rw [itemStart, List.map_append, Position.advanceBy_append, List.map_append,
      Position.advanceBy_append, start]
    rfl
  · intro index glyph at_index notSpace
    have there : (blank ++ (first.glyphs ++ rest))[blank.length + (first.glyphs.length + index)]? =
        some glyph := by
      rw [List.getElem?_append_right (by omega), List.getElem?_append_right (by omega),
        ← at_index]
      congr 1
      omega
    obtain ⟨item, listed, starts, stops⟩ := divides.covers _ _ there notSpace
    rcases List.mem_cons.1 listed with rfl | later
    · omega
    · exact ⟨item, later, by omega, by omega⟩
  · exact fun item member => divides.isText item (List.mem_cons_of_mem _ member)

/-- A text that is divided into items is cut into them. -/
theorem cut (divides : Divides position glyphs items) : Cut position glyphs items := by
  induction items generalizing position glyphs with
  | nil =>
    have space : ∀ glyph ∈ glyphs, isSpace glyph.shown = true := by
      intro glyph member
      by_contra notSpace
      obtain ⟨index, at_index⟩ := List.mem_iff_getElem?.1 member
      obtain ⟨item, listed, -⟩ := divides.covers index glyph at_index (Bool.eq_false_iff.2 notSpace)
      cases listed
    rw [← List.append_nil glyphs]
    exact .of_space space .nil
  | cons first items ih =>
    obtain ⟨blank, rest, rfl, start, space, later⟩ := divides.cons
    have complete := Item.complete_iff.2 (divides.isText first List.mem_cons_self)
    refine .of_space space ?_
    rw [← start]
    exact .item complete (ih later)

end Divides

/-! ## What is left behind the last item -/

/-- What is left of a text behind some of its items, with white space only before each of
them. -/
inductive Leaves : List Glyph → List Glyph → Prop
  | all {glyphs : List Glyph} : Leaves glyphs glyphs
  | item {blank item glyphs left : List Glyph}
      (space : ∀ glyph ∈ blank, isSpace glyph.shown = true)
      (isText : Item.IsText (item.map Glyph.shown))
      (rest : Leaves glyphs left) :
      Leaves (blank ++ (item ++ glyphs)) left

/-- Behind the last item of a text, where no other item can be taken from it, stands white
space only. -/
def OnlySpaceBehindItems (glyphs : List Glyph) : Prop :=
  ∀ left, Leaves glyphs left → (∀ later, Leaves left later → later = left) →
    ∀ glyph ∈ left, isSpace glyph.shown = true

namespace Item

/-- The first character of an item is no white space. -/
theorem IsText.exists_cons
    {glyphs : List Glyph}
    (isText : IsText (glyphs.map Glyph.shown)) :
    ∃ first rest, glyphs = first :: rest ∧ isSpace first.shown = false := by
  cases glyphs with
  | nil => exact absurd rfl isText.ends.ne_nil
  | cons first rest => exact ⟨first, rest, rfl, isText.starts first.shown rfl⟩

/-- Where an item may end it may end as the beginning of a longer text. -/
theorem MayEndBehind.of_prefix
    {front text : List Char}
    (mayEnd : MayEndBehind front front)
    (begins : front <+: text) :
    MayEndBehind text front := by
  refine ⟨mayEnd.1, mayEnd.2.imp_right ?_⟩
  rintro ⟨brace, notImport⟩
  obtain ⟨init, rfl⟩ := List.getLast?_eq_some_iff.1 brace
  exact ⟨brace, mt (import_prefix_iff begins).2 notImport⟩

/-- No item begins another one. -/
theorem IsText.eq_of_prefix
    {first second : List Char}
    (isText : IsText first)
    (other : IsText second)
    (begins : first <+: second) :
    first = second :=
  other.first first begins (isText.ends.of_prefix begins)

end Item

/-- The first item of a text and what stands behind it are determined by the text. -/
theorem eq_of_first_item
    {blank item rest otherBlank other otherRest : List Glyph}
    (space : ∀ glyph ∈ blank, isSpace glyph.shown = true)
    (isText : Item.IsText (item.map Glyph.shown))
    (otherSpace : ∀ glyph ∈ otherBlank, isSpace glyph.shown = true)
    (otherIsText : Item.IsText (other.map Glyph.shown))
    (same : blank ++ (item ++ rest) = otherBlank ++ (other ++ otherRest)) :
    rest = otherRest := by
  have behindSpace {blank item : List Glyph} (rest : List Glyph)
      (space : ∀ glyph ∈ blank, isSpace glyph.shown = true)
      (isText : Item.IsText (item.map Glyph.shown)) :
      (blank ++ (item ++ rest)).dropWhile (isSpace ·.shown) = item ++ rest := by
    obtain ⟨first, more, rfl, notSpace⟩ := isText.exists_cons
    rw [List.dropWhile_append_of_pos space, List.cons_append, List.dropWhile_cons_of_neg]
    rw [notSpace]
    exact Bool.false_ne_true
  have itemsSame : item ++ rest = other ++ otherRest := by
    rw [← behindSpace rest space isText, same, behindSpace otherRest otherSpace otherIsText]
  have length_eq : item.length = other.length := by
    have otherBegins : other <+: item ++ rest := itemsSame ▸ List.prefix_append other otherRest
    rcases List.prefix_or_prefix_of_prefix (List.prefix_append item rest) otherBegins with
      begins | begins
    · simpa using congrArg List.length
        (isText.eq_of_prefix otherIsText (begins.map Glyph.shown))
    · simpa using congrArg List.length
        (otherIsText.eq_of_prefix isText (begins.map Glyph.shown)).symm
  exact (List.append_inj itemsSame length_eq).2

namespace Cut

variable {position : Position} {glyphs left : List Glyph} {items : List Item}

/-- A text that is cut holds white space only, or its first item stands behind white space
and the rest is cut. -/
theorem space_or_first_item
    (cut : Cut position glyphs items) :
    (∀ glyph ∈ glyphs, isSpace glyph.shown = true) ∨
      ∃ blank item rest next later, glyphs = blank ++ (item ++ rest) ∧
        (∀ glyph ∈ blank, isSpace glyph.shown = true) ∧
        Item.IsText (item.map Glyph.shown) ∧ Cut next rest later := by
  induction cut with
  | nil => exact .inl nofun
  | blank space _ ih =>
    rcases ih with onlySpace | ⟨blank, item, rest, next, later, rfl, blankSpace, isText, cut⟩
    · exact .inl (List.forall_mem_cons.2 ⟨space, onlySpace⟩)
    · exact .inr ⟨_ :: blank, item, rest, next, later, rfl,
        List.forall_mem_cons.2 ⟨space, blankSpace⟩, isText, cut⟩
  | item complete rest _ =>
    exact .inr ⟨[], _, _, _, _, rfl, nofun, Item.complete_iff.1 complete, rest⟩

/-- What is left of a text that is cut is cut. -/
theorem of_leaves
    (cut : Cut position glyphs items)
    (leaves : Leaves glyphs left) :
    ∃ next later, Cut next left later := by
  induction leaves generalizing position items with
  | all => exact ⟨position, items, cut⟩
  | @item blank item glyphs left space isText rest ih =>
    rcases cut.space_or_first_item with onlySpace |
      ⟨otherBlank, other, otherRest, next, later, same, otherSpace, otherIsText, otherCut⟩
    · obtain ⟨first, more, rfl, notSpace⟩ := isText.exists_cons
      rw [onlySpace first (by simp)] at notSpace
      cases notSpace
    · obtain rfl := eq_of_first_item space isText otherSpace otherIsText same
      exact ih otherCut

/-- Nothing but white space is left behind the items of a text that is cut. -/
theorem onlySpaceBehindItems (cut : Cut position glyphs items) : OnlySpaceBehindItems glyphs := by
  intro left leaves last
  obtain ⟨next, later, leftCut⟩ := cut.of_leaves leaves
  rcases leftCut.space_or_first_item with onlySpace |
    ⟨blank, item, rest, _, _, rfl, space, isText, -⟩
  · exact onlySpace
  · obtain ⟨first, more, rfl, -⟩ := isText.exists_cons
    have shorter := congrArg List.length (last rest (.item space isText .all))
    simp only [List.length_append, List.length_cons] at shorter
    omega

end Cut

/-- A text is cut into items if nothing but white space is left behind its items.  Each item
that can be taken from it leaves a shorter text. -/
theorem exists_cut_of_onlySpaceBehindItems
    {glyphs : List Glyph}
    (onlySpace : OnlySpaceBehindItems glyphs)
    (position : Position) :
    ∃ items, Cut position glyphs items := by
  induction length : glyphs.length using Nat.strongRecOn generalizing glyphs position with
  | ind bound ih =>
    subst length
    by_cases space : ∀ glyph ∈ glyphs, isSpace glyph.shown = true
    · refine ⟨[], ?_⟩
      rw [← List.append_nil glyphs]
      exact .of_space space .nil
    · have more : ¬ ∀ later, Leaves glyphs later → later = glyphs :=
        fun last => space (onlySpace glyphs .all last)
      obtain ⟨later, leaves, shorter⟩ : ∃ later, Leaves glyphs later ∧ later ≠ glyphs := by
        simpa using more
      cases leaves with
      | all => exact absurd rfl shorter
      | @item blank item rest _ blankSpace isText _ =>
        obtain ⟨head, more, nonempty, -⟩ := isText.exists_cons
        have shorter : rest.length < (blank ++ (item ++ rest)).length := by
          simp only [nonempty, List.length_append, List.length_cons]
          omega
        let first : Item := ⟨position.advanceBy (blank.map Glyph.raw), item⟩
        obtain ⟨items, cut⟩ := ih rest.length shorter
          (fun left leaves => onlySpace left (.item blankSpace isText leaves))
          (first.start.advanceBy first.raw) rfl
        have complete : first.Complete := Item.complete_iff.2 isText
        exact ⟨first :: items, .of_space blankSpace (.item complete cut)⟩

/-- **Splitting is exact.**  A text is split into items exactly if its brackets are nested and
only white space follows its last item.  The items are then those into which the text is
divided, and no others: they follow one another inside of the text, cover all of it but white
space, and each of them ends at the first place where it may end. -/
theorem splitItems_exact (position : Position) (glyphs : List Glyph) :
    ((∃ items, splitItems position glyphs = .ok items) ↔
      Bracket.Nested (glyphs.map Glyph.shown) ∧ OnlySpaceBehindItems glyphs) ∧
    ∀ items, splitItems position glyphs = .ok items ↔ Divides position glyphs items := by
  simp only [splitItems_eq_ok_iff_cut]
  refine ⟨⟨?_, ?_⟩, fun items => ⟨Cut.divides, Divides.cut⟩⟩
  · rintro ⟨items, cut⟩
    exact ⟨Bracket.nested_iff_foldlM_track.2 cut.nested, cut.onlySpaceBehindItems⟩
  · rintro ⟨-, onlySpace⟩
    exact exists_cut_of_onlySpaceBehindItems onlySpace position

end ContractDoc
