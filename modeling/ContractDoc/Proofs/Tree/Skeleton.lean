import ContractDoc.Proofs.Tree.Transfer

/-!
# Contracts and the skeleton

The contracts of a file are read from its skeleton alone.  Two files with one
skeleton have the same contracts, and the skeleton does not tell what a comment
or a string literal says: only where its lines end.
-/

namespace ContractDoc

namespace Glyph

/-- A character of the skeleton with only as much of the source as the skeleton
tells: whether it is a line feed. -/
def ofShown (c : Char) : Glyph := ⟨if c = '\n' then '\n' else ' ', c⟩

end Glyph

/-- Forgets the source behind the skeleton, except for its line feeds. -/
def Transfer.veil : Transfer where
  shift := .zero
  glyph original := ⟨if original.raw = '\n' then '\n' else ' ', original.shown⟩
  shown_glyph _ := rfl
  lineFeed_glyph original := by
    split
    · next lineFeed => simp [lineFeed]
    · next other => simp [other]

/-- Behind the veil, the characters of a file are those of its skeleton. -/
theorem map_veil_of_glyphs
    {source : List Char} {found : List Glyph}
    (read : glyphs source = .ok found) :
    found.map Transfer.veil.glyph = (found.map Glyph.shown).map Glyph.ofShown := by
  obtain ⟨lexemes, -, rfl⟩ := glyphs_eq_ok_iff.1 read
  rw [List.map_map]
  apply List.map_congr_left
  intro glyph member
  obtain ⟨lexeme, -, member⟩ := List.mem_flatMap.1 member
  simp only [Transfer.veil, Function.comp_apply, Glyph.ofShown,
    Lexeme.raw_eq_lineFeed_iff member]

namespace Declaration

/-- The contract of a declaration, if it is one. -/
def contract? : Declaration → Option ContractDecl
  | .contract decl => some decl
  | _ => none

/-- The contract that an item declares, if it is one and can be read. -/
def contractOf? (item : Item) : Option ContractDecl :=
  match read item with
  | .ok (some declaration) => declaration.contract?
  | _ => none

/-- An item is read as a contract from its skeleton alone. -/
theorem contractOf?_veil (item : Item) :
    contractOf? (Transfer.veil.item item) = contractOf? item := by
  unfold contractOf? read
  rw [Transfer.shown_item]
  dsimp only
  split_ifs
  · cases PragmaDecl.ofItem (Transfer.veil.item item) <;>
      cases PragmaDecl.ofItem item <;> rfl
  · cases ImportDecl.ofItem (Transfer.veil.item item) <;>
      cases ImportDecl.ofItem item <;> rfl
  · rw [Transfer.contract_ofItem]
    cases ContractDecl.ofItem item with
    | error error => rfl
    | ok decl => exact congrArg some (Shift.contract_zero decl)
  · rfl

end Declaration

/-- The contracts of a file are those of its items. -/
theorem contracts_eq_filterMap
    {items : List Item} {found : List (Option Declaration)}
    (readings : items.mapM Declaration.read = .ok found) :
    SourceUnit.contracts ⟨found.filterMap id⟩ = items.filterMap Declaration.contractOf? := by
  have each := mapM_eq_ok_iff.1 readings
  clear readings
  induction each with
  | nil => rfl
  | @cons item reading items found first _ ih =>
    have head : Declaration.contractOf? item = reading.bind Declaration.contract? := by
      unfold Declaration.contractOf?
      rw [first]
      cases reading <;> rfl
    rw [List.filterMap_cons, List.filterMap_cons, head, ← ih]
    rcases reading with _ | (decl | decl | decl) <;> rfl

/-- Behind the veil, the items of a file are those of its skeleton. -/
theorem splitItems_skeleton
    {source shown : List Char} {items : List Item}
    (blanked : skeleton source = .ok shown)
    (split : topLevelItems source = .ok items) :
    splitItems .origin (shown.map Glyph.ofShown) = .ok (items.map Transfer.veil.item) := by
  obtain ⟨found, read, rfl⟩ := skeleton_eq_ok_iff.1 blanked
  have whole : splitItems .origin found = .ok items := by
    rw [topLevelItems, read] at split
    exact split
  have veiled := Transfer.veil.splitItems_transfer .origin found
  rw [map_veil_of_glyphs read, whole] at veiled
  exact veiled

/-- Two files with one skeleton have the same contracts. -/
theorem contracts_eq_of_skeleton_eq
    {source other : String} {shown : List Char} {tree otherTree : SourceUnit}
    (blanked : skeleton source.toList = .ok shown)
    (otherBlanked : skeleton other.toList = .ok shown)
    (parsed : parse source = .ok tree)
    (otherParsed : parse other = .ok otherTree) :
    otherTree.contracts = tree.contracts := by
  obtain ⟨items, split, found, readings, rfl⟩ := parse_eq_ok_iff.1 parsed
  obtain ⟨otherItems, otherSplit, otherFound, otherReadings, rfl⟩ :=
    parse_eq_ok_iff.1 otherParsed
  have veiled : otherItems.map Transfer.veil.item = items.map Transfer.veil.item :=
    Except.ok.inj ((splitItems_skeleton otherBlanked otherSplit).symm.trans
      (splitItems_skeleton blanked split))
  have unseen (items : List Item) :
      (items.map Transfer.veil.item).filterMap Declaration.contractOf? =
        items.filterMap Declaration.contractOf? := by
    rw [List.filterMap_map]
    congr 1
    funext item
    exact Declaration.contractOf?_veil item
  calc SourceUnit.contracts ⟨otherFound.filterMap id⟩
      = otherItems.filterMap Declaration.contractOf? := contracts_eq_filterMap otherReadings
    _ = items.filterMap Declaration.contractOf? := by
        rw [← unseen otherItems, veiled, unseen items]
    _ = SourceUnit.contracts ⟨found.filterMap id⟩ := (contracts_eq_filterMap readings).symm

namespace Lexeme

/-- Two texts of one length with line feeds at the same places. -/
def SameLines (body other : List Char) : Prop :=
  other.length = body.length ∧
    ∀ index : Nat, other[index]? = some '\n' ↔ body[index]? = some '\n'

/-- A comment or a literal, and the same one with another body in which the line
feeds stay at their places. -/
inductive Variant : Lexeme → Lexeme → Prop
  | lineComment {body other : List Char}
      (same : SameLines body other) :
      Variant (.lineComment body) (.lineComment other)
  | blockComment {body other : List Char}
      (same : SameLines body other) :
      Variant (.blockComment body) (.blockComment other)
  | literal {quote : Char} {body other : List Char}
      (same : SameLines body other) :
      Variant (.literal quote body) (.literal quote other)

theorem SameLines.shown_eq
    {body other : List Char}
    (same : SameLines body other) :
    (other.map Glyph.blanked).map Glyph.shown = (body.map Glyph.blanked).map Glyph.shown := by
  obtain ⟨length, lineFeeds⟩ := same
  apply List.ext_getElem
  · simp [length]
  · intro index before after
    have lineFeed := lineFeeds index
    simp only [List.length_map] at before after
    rw [List.getElem?_eq_getElem before, List.getElem?_eq_getElem after] at lineFeed
    simp only [Option.some.injEq] at lineFeed
    simp only [List.getElem_map, Glyph.blanked, lineFeed]
    split
    · next here => rw [here, lineFeed.2 here]
    · rfl

namespace Variant

variable {lexeme variant : Lexeme}

/-- The skeleton does not show which variant of a lexeme it hides. -/
theorem shown_eq
    (altered : lexeme.Variant variant) :
    variant.glyphs.map Glyph.shown = lexeme.glyphs.map Glyph.shown := by
  cases altered with
  | lineComment same => simpa [glyphs] using same.shown_eq
  | blockComment same => simpa [glyphs] using same.shown_eq
  | literal same => simpa [glyphs] using same.shown_eq

theorem head?_raw
    (altered : lexeme.Variant variant) (after : List Char) :
    (variant.raw ++ after).head? = (lexeme.raw ++ after).head? := by
  cases altered <;> rfl

theorem before
    {following : Option Char}
    (altered : lexeme.Variant variant)
    (stands : lexeme.Before following) :
    variant.Before following := by
  cases altered <;> exact stands

/-- The lexemes around a variant are read as before. -/
theorem row
    {before after : List Lexeme} {following : Option Char}
    (altered : lexeme.Variant variant)
    (wellFormed : variant.WellFormed)
    (row : Row (before ++ lexeme :: after) following) :
    Row (before ++ variant :: after) following := by
  obtain ⟨front, -, stands, back⟩ := row_append.1 row
  refine row_append.2 ⟨?_, wellFormed, altered.before stands, back⟩
  rw [List.flatMap_cons, altered.head?_raw]
  exact front

end Variant

end Lexeme

/-- What comments and string literals say never matters for contracts.  When the
body of one of them is exchanged for a text with the same line feeds that is
again the body of such a lexeme, all other lexemes and the skeleton stay, and the
contracts are the same whenever both files can be read. -/
theorem contracts_independent_of_hidden_text
    (source : String)
    (before after : List Lexeme)
    (lexeme variant : Lexeme)
    (reading : Lexeme.read source.toList = .ok (before ++ lexeme :: after))
    (altered : lexeme.Variant variant)
    (again : Lexeme.read variant.raw = .ok [variant]) :
    let other := String.ofList ((before ++ variant :: after).flatMap Lexeme.raw)
    Lexeme.read other.toList = .ok (before ++ variant :: after) ∧
      (∃ shown, skeleton source.toList = .ok shown ∧ skeleton other.toList = .ok shown) ∧
      ∀ tree otherTree, parse source = .ok tree → parse other = .ok otherTree →
        otherTree.contracts = tree.contracts := by
  intro other
  obtain ⟨whole, row⟩ := Lexeme.read_eq_ok_iff.1 reading
  obtain ⟨-, wellFormed, -, -⟩ := Lexeme.read_eq_ok_iff.1 again
  have otherReading : Lexeme.read other.toList = .ok (before ++ variant :: after) := by
    rw [Lexeme.read_eq_ok_iff]
    exact ⟨String.toList_ofList.symm, altered.row wellFormed row⟩
  have blanked : skeleton source.toList =
      .ok (((before ++ lexeme :: after).flatMap Lexeme.glyphs).map Glyph.shown) :=
    skeleton_eq_ok_iff.2 ⟨_, glyphs_eq_ok_iff.2 ⟨_, reading, rfl⟩, rfl⟩
  have otherBlanked : skeleton other.toList =
      .ok (((before ++ lexeme :: after).flatMap Lexeme.glyphs).map Glyph.shown) := by
    refine skeleton_eq_ok_iff.2 ⟨_, glyphs_eq_ok_iff.2 ⟨_, otherReading, rfl⟩, ?_⟩
    simp only [List.flatMap_append, List.flatMap_cons, List.map_append, altered.shown_eq]
  refine ⟨otherReading, ⟨_, blanked, otherBlanked⟩, ?_⟩
  intro tree otherTree parsed otherParsed
  exact contracts_eq_of_skeleton_eq blanked otherBlanked parsed otherParsed

/-- The lexemes of a contract with a comment that holds a character and a line
feed. -/
def commentedContract (c : Char) : List Lexeme :=
  "contract C \x7b".toList.map Lexeme.code ++
    .blockComment [c, '\n'] :: " uint x; \x7d".toList.map Lexeme.code

/-- A brace in a comment does not end the contract around it. -/
theorem brace_in_comment_unseen :
    ∃ tree otherTree,
      parse (String.ofList ((commentedContract 'a').flatMap Lexeme.raw)) = .ok tree ∧
        parse (String.ofList ((commentedContract '}').flatMap Lexeme.raw)) = .ok otherTree ∧
          otherTree.contracts = tree.contracts := by
  have parsed : parse (String.ofList ((commentedContract 'a').flatMap Lexeme.raw)) =
      .ok ⟨[.contract ⟨"C", .contract, [],
        [.stateVariable ⟨"x", "uint", "internal", false, 19, 2⟩], false, 0, 28, 1⟩]⟩ := by
    decide +kernel
  have otherParsed : parse (String.ofList ((commentedContract '}').flatMap Lexeme.raw)) =
      .ok ⟨[.contract ⟨"C", .contract, [],
        [.stateVariable ⟨"x", "uint", "internal", false, 19, 2⟩], false, 0, 28, 1⟩]⟩ := by
    decide +kernel
  have reading :
      Lexeme.read (String.ofList ((commentedContract 'a').flatMap Lexeme.raw)).toList =
        .ok (commentedContract 'a') := by
    decide +kernel
  have again : Lexeme.read (Lexeme.blockComment ['}', '\n']).raw =
      .ok [.blockComment ['}', '\n']] := by
    decide +kernel
  have same : Lexeme.SameLines ['a', '\n'] ['}', '\n'] := by
    refine ⟨rfl, fun index => ?_⟩
    rcases index with _ | _ | index <;> simp
  have unseen := contracts_independent_of_hidden_text _ _ _ _ _ reading
    (.blockComment same) again
  exact ⟨_, _, parsed, otherParsed, unseen.2.2 _ _ parsed otherParsed⟩

end ContractDoc
