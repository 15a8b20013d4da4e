import ContractDoc.Proofs.Tree.Skeleton
import ContractDoc.Proofs.Tree.Statement

/-!
# Files without comments

A file without its comments has the same skeleton and is split at the same places.  Its
contracts are read the same.  A pragma or an import is read differently if it holds a
comment, unless it is malformed both ways or the comments stand in a list of symbols that
they do not change.
-/

namespace ContractDoc

open Text

/-! ## Items -/

/-- An item of a file, and the item of the file without comments. -/
structure Item.Pair (item bare : Item) : Prop where
  veiled : Transfer.veil.item bare = Transfer.veil.item item
  glyphs : Uncommented item.glyphs bare.glyphs
  /-- What the skeleton shows stands in the source. -/
  visible : ∀ glyph ∈ item.glyphs, isSpace glyph.shown = false → glyph.raw = glyph.shown

namespace Item.Pair

variable {item bare : Item} (pair : item.Pair bare)

include pair

theorem start : bare.start = item.start := by
  have same : (Transfer.veil.item bare).start = (Transfer.veil.item item).start := by
    rw [pair.veiled]
  exact same

theorem line : bare.line = item.line :=
  congrArg Position.line pair.start

theorem shown : bare.shown = item.shown :=
  pair.glyphs.map_shown

theorem raw : Blanked item.raw bare.raw :=
  pair.glyphs.blanked

/-- A visible word at the start of the skeleton stands in the source. -/
theorem exists_raw_eq
    {word : List Char}
    (visible : word.any isSpace = false)
    (starts : startsWithWord word item.shown = true) :
    ∃ rest, item.raw = word ++ rest := by
  obtain ⟨rest, whole⟩ := prefix_of_startsWithWord starts
  obtain ⟨front, back, glyphsEq, frontShown, -⟩ := List.map_eq_append_iff.1 whole.symm
  have frontRaw : front.map Glyph.raw = word := by
    rw [← frontShown]
    apply List.map_congr_left
    intro glyph member
    refine pair.visible glyph (by rw [glyphsEq]; exact List.mem_append_left _ member) ?_
    rw [← frontShown] at visible
    exact Bool.eq_false_iff.2 (List.any_eq_false.1 visible _ (List.mem_map_of_mem member))
  refine ⟨back.map Glyph.raw, ?_⟩
  rw [Item.raw, glyphsEq, List.map_append, frontRaw]

end Item.Pair

/-- The characters of a file and those of the file without comments. -/
theorem glyphs_uncommented
    {source : List Char} {lexemes : List Lexeme}
    (reading : Lexeme.read source = .ok lexemes) :
    glyphs source = .ok (lexemes.flatMap Lexeme.glyphs) ∧
      glyphs (lexemes.flatMap Lexeme.uncommented) =
        .ok ((lexemes.flatMap Lexeme.replacement).flatMap Lexeme.glyphs) :=
  ⟨glyphs_eq_ok_iff.2 ⟨_, reading, rfl⟩,
    glyphs_eq_ok_iff.2 ⟨_, Lexeme.read_uncommented reading, rfl⟩⟩

/-- A file without comments has the skeleton of the file. -/
theorem skeleton_uncommented
    {source : List Char} {lexemes : List Lexeme}
    (reading : Lexeme.read source = .ok lexemes) :
    skeleton (lexemes.flatMap Lexeme.uncommented) = skeleton source := by
  obtain ⟨found, bareFound⟩ := glyphs_uncommented reading
  rw [skeleton, skeleton, found, bareFound]
  exact congrArg Except.ok (Uncommented.ofLexemes lexemes).map_shown

/-- Items of the two files that look the same behind the veil are a pair. -/
theorem Item.Pair.of_partOf
    {item bare : Item} {lexemes : List Lexeme}
    (veiled : Transfer.veil.item item = Transfer.veil.item bare)
    (complete : item.Complete)
    (partOf : PartOf .origin (lexemes.flatMap Lexeme.glyphs) item.start item.glyphs)
    (barePartOf : PartOf .origin ((lexemes.flatMap Lexeme.replacement).flatMap Lexeme.glyphs)
      bare.start bare.glyphs) :
    item.Pair bare := by
  have start : (Transfer.veil.item item).start = (Transfer.veil.item bare).start := by
    rw [veiled]
  have length : bare.glyphs.length = item.glyphs.length := by
    have lengths := congrArg (fun item => item.glyphs.length) veiled
    simpa [Transfer.item] using lengths.symm
  refine ⟨veiled.symm, ?_, ?_⟩
  · rw [show bare.start = item.start from start.symm] at barePartOf
    exact (Uncommented.ofLexemes lexemes).of_partOf complete partOf barePartOf length
  · intro glyph member visible
    obtain ⟨lexeme, -, member⟩ := List.mem_flatMap.1 (partOf.mem member)
    exact (Lexeme.raw_eq_shown_of_not_isSpace member visible).1

/-- A file without comments is refused like the file or split at the same places.  Behind the
veil, both are one text. -/
theorem topLevelItems_uncommented
    {source : List Char} {lexemes : List Lexeme}
    (reading : Lexeme.read source = .ok lexemes) :
    (∃ error, topLevelItems source = .error error ∧
      topLevelItems (lexemes.flatMap Lexeme.uncommented) = .error error) ∨
    ∃ items bares, topLevelItems source = .ok items ∧
      topLevelItems (lexemes.flatMap Lexeme.uncommented) = .ok bares ∧
        List.Forall₂ Item.Pair items bares := by
  obtain ⟨found, bareFound⟩ := glyphs_uncommented reading
  have split : topLevelItems source = splitItems .origin (lexemes.flatMap Lexeme.glyphs) := by
    rw [topLevelItems, found]
    rfl
  have bareSplit : topLevelItems (lexemes.flatMap Lexeme.uncommented) = splitItems .origin
      ((lexemes.flatMap Lexeme.replacement).flatMap Lexeme.glyphs) := by
    rw [topLevelItems, bareFound]
    rfl
  have veiled := Transfer.veil.splitItems_transfer .origin (lexemes.flatMap Lexeme.glyphs)
  have bareVeiled := Transfer.veil.splitItems_transfer .origin
    ((lexemes.flatMap Lexeme.replacement).flatMap Lexeme.glyphs)
  rw [map_veil_of_glyphs bareFound, (Uncommented.ofLexemes lexemes).map_shown,
    ← map_veil_of_glyphs found, veiled] at bareVeiled
  rw [split, bareSplit]
  cases result : splitItems .origin (lexemes.flatMap Lexeme.glyphs) with
  | error error =>
    cases bareResult : splitItems .origin
        ((lexemes.flatMap Lexeme.replacement).flatMap Lexeme.glyphs) with
    | ok bares =>
      rw [result, bareResult] at bareVeiled
      cases bareVeiled
    | error bareError =>
      rw [result, bareResult] at bareVeiled
      exact .inl ⟨error, rfl, bareVeiled.symm⟩
  | ok items =>
    cases bareResult : splitItems .origin
        ((lexemes.flatMap Lexeme.replacement).flatMap Lexeme.glyphs) with
    | error bareError =>
      rw [result, bareResult] at bareVeiled
      cases bareVeiled
    | ok bares =>
      rw [result, bareResult] at bareVeiled
      refine .inr ⟨items, bares, rfl, rfl, ?_⟩
      have same : List.Forall₂
          (fun item bare => Transfer.veil.item item = Transfer.veil.item bare) items bares := by
        have mapped : items.map Transfer.veil.item = bares.map Transfer.veil.item :=
          Except.ok.inj bareVeiled
        rw [← List.forall₂_eq_eq_eq] at mapped
        exact List.forall₂_map_left_iff.1 (List.forall₂_map_right_iff.1 mapped)
      have parts := (cut_of_splitItems result).complete_partOf
      have bareParts := (cut_of_splitItems bareResult).complete_partOf
      rw [List.forall₂_iff_zip] at same ⊢
      refine ⟨same.1, fun {item bare} member => ?_⟩
      obtain ⟨isItem, isBare⟩ := List.of_mem_zip member
      obtain ⟨complete, partOf⟩ := parts item isItem
      exact .of_partOf (same.2 member) complete partOf (bareParts bare isBare).2

/-! ## Declarations -/

theorem PragmaDecl.ofItem_eq_iff
    {item bare : Item}
    (start : bare.start = item.start) :
    ofItem bare = ofItem item ↔ parts? bare.raw = parts? item.raw := by
  unfold ofItem Item.fail Item.line
  rw [start]
  constructor
  · intro same
    split at same
    · next bareNone =>
      split at same
      · next none => rw [bareNone, none]
      · cases same
    · next bareName bareValue bareFound =>
      split at same
      · cases same
      · next name value found =>
        simp only [Except.ok.injEq, PragmaDecl.mk.injEq] at same
        rw [bareFound, found, String.ofList_injective same.1, String.ofList_injective same.2.1]
  · intro same
    rw [same]

theorem PragmaDecl.exists_ofItem_iff {item : Item} :
    (∃ decl, ofItem item = .ok decl) ↔ parts? item.raw ≠ none := by
  unfold ofItem Item.fail
  split
  · next none => simp [none]
  · next found => simp [found]

theorem ImportDecl.ofItem_eq_iff
    {item bare : Item}
    (start : bare.start = item.start) :
    ofItem bare = ofItem item ↔ clause? bare.raw = clause? item.raw := by
  have names : Function.Injective (Option.map String.ofList) :=
    Option.map_injective fun _ _ same => String.ofList_injective same
  unfold ofItem Item.fail Item.line
  rw [start]
  constructor
  · intro same
    split at same
    · next bareNone =>
      split at same
      · next none => rw [bareNone, none]
      · cases same
    · next bareClause bareFound =>
      split at same
      · cases same
      · next clause found =>
        simp only [Except.ok.injEq, ImportDecl.mk.injEq] at same
        obtain ⟨path, localName, symbols, -⟩ := same
        rw [bareFound, found]
        congr 1
        cases bareClause
        cases clause
        congr
        · exact String.ofList_injective path
        · exact names localName
  · intro same
    rw [same]

theorem ImportDecl.exists_ofItem_iff {item : Item} :
    (∃ decl, ofItem item = .ok decl) ↔ clause? item.raw ≠ none := by
  unfold ofItem Item.fail
  split
  · next none => simp [none]
  · next found => simp [found]

/-- A pragma or an import that is read differently without its comments. -/
structure Misread (item bare : Item) : Prop where
  commented : bare.raw ≠ item.raw
  isStatement : startsWithWord "pragma".toList item.shown = true ∨
    startsWithWord "import".toList item.shown = true
  /-- With or without the comments, it is well formed. -/
  accepted : (∃ declaration, Declaration.read item = .ok declaration) ∨
    ∃ declaration, Declaration.read bare = .ok declaration
  changed : ¬ ImportDecl.SameButList item.raw bare.raw

namespace Declaration

theorem read_of_pragma
    {item : Item}
    (isPragma : startsWithWord "pragma".toList item.shown = true) :
    read item = (PragmaDecl.ofItem item).map fun decl => some (.pragma decl) := by
  rw [read, if_pos isPragma]
  cases PragmaDecl.ofItem item <;> rfl

theorem read_of_import
    {item : Item}
    (notPragma : ¬ startsWithWord "pragma".toList item.shown = true)
    (isImport : startsWithWord "import".toList item.shown = true) :
    read item = (ImportDecl.ofItem item).map fun decl => some (.importing decl) := by
  rw [read, if_neg notPragma, if_pos isImport]
  cases ImportDecl.ofItem item <;> rfl

theorem map_eq_iff
    {α : Type} {make : α → Option Declaration} {first second : Except ParseError α}
    (injective : Function.Injective make) :
    first.map make = second.map make ↔ first = second := by
  cases first <;> cases second <;> simp [Except.map, injective.eq_iff]

theorem exists_map_iff
    {α : Type} {make : α → Option Declaration} {result : Except ParseError α} :
    (∃ declaration, result.map make = .ok declaration) ↔ ∃ value, result = .ok value := by
  cases result <;> simp [Except.map]

/-- Whether a statement can be read, with or without its comments. -/
theorem read_eq_iff_of_statement
    {item bare : Item}
    (isStatement : startsWithWord "pragma".toList item.shown = true ∨
      startsWithWord "import".toList item.shown = true)
    (same : read bare = read item ↔ bare.raw = item.raw ∨
      ¬ ((∃ declaration, read item = .ok declaration) ∨
        ∃ declaration, read bare = .ok declaration) ∨
      ImportDecl.SameButList item.raw bare.raw) :
    read bare = read item ↔ ¬ Misread item bare := by
  rw [same]
  constructor
  · rintro (equal | refused | sameButList) misread
    · exact misread.commented equal
    · exact refused misread.accepted
    · exact misread.changed sameButList
  · intro fine
    by_contra differs
    push Not at differs
    exact fine ⟨differs.1, isStatement, differs.2.1, differs.2.2⟩

/-- A pragma is read the same exactly if it is not misread. -/
theorem read_eq_iff_of_pragma
    {item bare : Item}
    (pair : item.Pair bare)
    (isPragma : startsWithWord "pragma".toList item.shown = true) :
    read bare = read item ↔ ¬ Misread item bare := by
  obtain ⟨rest, word⟩ := pair.exists_raw_eq (by decide) isPragma
  have bareIsPragma : startsWithWord "pragma".toList bare.shown = true := by
    rwa [pair.shown]
  have notImport : ¬ ImportDecl.SameButList item.raw bare.raw := by
    rintro ⟨blanks, list, otherList, behind, isImport, -⟩
    rw [word] at isImport
    cases isImport
  apply read_eq_iff_of_statement (.inl isPragma)
  rw [read_of_pragma isPragma, read_of_pragma bareIsPragma,
    map_eq_iff fun _ _ same => by cases same; rfl, PragmaDecl.ofItem_eq_iff pair.start,
    PragmaDecl.parts?_eq_iff word pair.raw, exists_map_iff, exists_map_iff,
    PragmaDecl.exists_ofItem_iff, PragmaDecl.exists_ofItem_iff]
  simp only [ne_eq, not_or, not_not, and_comm, notImport, or_false]

/-- An import is read the same exactly if it is not misread. -/
theorem read_eq_iff_of_import
    {item bare : Item}
    (pair : item.Pair bare)
    (notPragma : ¬ startsWithWord "pragma".toList item.shown = true)
    (isImport : startsWithWord "import".toList item.shown = true) :
    read bare = read item ↔ ¬ Misread item bare := by
  obtain ⟨rest, word⟩ := pair.exists_raw_eq (by decide) isImport
  have bareIsImport : startsWithWord "import".toList bare.shown = true := by
    rwa [pair.shown]
  have bareNotPragma : ¬ startsWithWord "pragma".toList bare.shown = true := by
    rwa [pair.shown]
  apply read_eq_iff_of_statement (.inr isImport)
  rw [read_of_import notPragma isImport, read_of_import bareNotPragma bareIsImport,
    map_eq_iff fun _ _ same => by cases same; rfl, ImportDecl.ofItem_eq_iff pair.start,
    ImportDecl.clause?_eq_iff word pair.raw, exists_map_iff, exists_map_iff,
    ImportDecl.exists_ofItem_iff, ImportDecl.exists_ofItem_iff]
  simp only [ne_eq, not_or, not_not, and_comm]

/-- A contract is read from the skeleton. -/
theorem contract_ofItem_eq
    {item bare : Item}
    (pair : item.Pair bare) :
    ContractDecl.ofItem bare = ContractDecl.ofItem item := by
  have unmoved (result : Except ParseError ContractDecl) :
      Shift.zero.result Shift.zero.contract result = result := by
    cases result with
    | error error => rfl
    | ok decl => exact congrArg Except.ok (Shift.contract_zero decl)
  calc ContractDecl.ofItem bare
      = ContractDecl.ofItem (Transfer.veil.item bare) := by
        rw [Transfer.contract_ofItem]
        exact (unmoved _).symm
    _ = ContractDecl.ofItem item := by
        rw [pair.veiled, Transfer.contract_ofItem]
        exact unmoved _

/-- An item is read the same without its comments exactly if it is not misread. -/
theorem read_eq_iff
    {item bare : Item}
    (pair : item.Pair bare) :
    read bare = read item ↔ ¬ Misread item bare := by
  by_cases isPragma : startsWithWord "pragma".toList item.shown = true
  · exact read_eq_iff_of_pragma pair isPragma
  · by_cases isImport : startsWithWord "import".toList item.shown = true
    · exact read_eq_iff_of_import pair isPragma isImport
    · have same : read bare = read item := by
        unfold read
        rw [pair.shown, contract_ofItem_eq pair]
        dsimp only
        rw [if_neg isPragma, if_neg isImport, if_neg isPragma, if_neg isImport]
      refine ⟨fun _ misread => ?_, fun _ => same⟩
      exact misread.isStatement.elim isPragma isImport

end Declaration

/-! ## Files -/

/-- A statement is misread, and all items before it are read. -/
inductive MisreadAmong : List Item → List Item → Prop
  | here {item bare : Item} {items bares : List Item}
      (misread : Misread item bare) :
      MisreadAmong (item :: items) (bare :: bares)
  | later {item bare : Item} {items bares : List Item} {declaration : Option Declaration}
      (read : Declaration.read item = .ok declaration)
      (rest : MisreadAmong items bares) :
      MisreadAmong (item :: items) (bare :: bares)

/-- Without misread statements the items are read the same, up to the first one that is
refused. -/
theorem mapM_read_eq
    {items bares : List Item}
    (pairs : List.Forall₂ Item.Pair items bares)
    (fine : ¬ MisreadAmong items bares) :
    bares.mapM Declaration.read = items.mapM Declaration.read := by
  induction pairs with
  | nil => rfl
  | @cons item bare items bares pair pairs ih =>
    have same := (Declaration.read_eq_iff pair).2 fun misread => fine (.here misread)
    rw [List.mapM_cons, List.mapM_cons, same]
    cases result : Declaration.read item with
    | error error => rfl
    | ok declaration => rw [ih fun rest => fine (.later result rest)]

/-- A statement that is read is a declaration. -/
theorem Declaration.exists_of_read
    {item : Item} {reading : Option Declaration}
    (isStatement : startsWithWord "pragma".toList item.shown = true ∨
      startsWithWord "import".toList item.shown = true)
    (read : Declaration.read item = .ok reading) :
    ∃ declaration, reading = some declaration := by
  by_cases isPragma : startsWithWord "pragma".toList item.shown = true
  · rw [Declaration.read_of_pragma isPragma] at read
    cases found : PragmaDecl.ofItem item with
    | error error =>
      rw [found] at read
      cases read
    | ok decl =>
      rw [found] at read
      exact ⟨_, (Except.ok.inj read).symm⟩
  · have isImport := isStatement.resolve_left isPragma
    rw [Declaration.read_of_import isPragma isImport] at read
    cases found : ImportDecl.ofItem item with
    | error error =>
      rw [found] at read
      cases read
    | ok decl =>
      rw [found] at read
      exact ⟨_, (Except.ok.inj read).symm⟩

/-- With a misread statement the declarations are not the same. -/
theorem filterMap_ne
    {items bares : List Item} {found bareFound : List (Option Declaration)}
    (pairs : List.Forall₂ Item.Pair items bares)
    (among : MisreadAmong items bares)
    (readings : items.mapM Declaration.read = .ok found)
    (bareReadings : bares.mapM Declaration.read = .ok bareFound) :
    bareFound.filterMap id ≠ found.filterMap id := by
  rw [mapM_eq_ok_iff] at readings bareReadings
  induction pairs generalizing found bareFound with
  | nil => cases among
  | @cons item bare items bares pair pairs ih =>
    cases readings with
    | @cons _ reading _ found read readings =>
    cases bareReadings with
    | @cons _ bareReading _ bareFound bareRead bareReadings =>
    by_cases misread : Misread item bare
    · obtain ⟨declaration, rfl⟩ := Declaration.exists_of_read misread.isStatement read
      obtain ⟨bareDeclaration, rfl⟩ :=
        Declaration.exists_of_read (pair.shown.symm ▸ misread.isStatement) bareRead
      intro equal
      obtain ⟨rfl, -⟩ := List.cons.inj equal
      exact (Declaration.read_eq_iff pair).1 (bareRead.trans read.symm) misread
    · have same := (Declaration.read_eq_iff pair).2 misread
      rw [read, bareRead] at same
      obtain rfl := Except.ok.inj same
      cases among with
      | here here => exact absurd here misread
      | later _ rest =>
        have differs := ih rest readings bareReadings
        cases bareReading with
        | none => exact differs
        | some declaration => exact fun equal => differs (List.cons.inj equal).2

/-- Two files with paired items have one tree exactly if no statement is misread. -/
theorem parse_eq_iff
    {source bare : String} {items bares : List Item}
    (split : topLevelItems source.toList = .ok items)
    (bareSplit : topLevelItems bare.toList = .ok bares)
    (pairs : List.Forall₂ Item.Pair items bares) :
    parse bare = parse source ↔ ¬ MisreadAmong items bares ∨
      ∃ error, parse bare = .error error ∧ parse source = .error error := by
  constructor
  · intro same
    by_cases among : MisreadAmong items bares
    · cases result : parse source with
      | error error => exact .inr ⟨error, same.trans result, rfl⟩
      | ok tree =>
        obtain ⟨_, here, found, readings, rfl⟩ := parse_eq_ok_iff.1 result
        obtain ⟨_, there, bareFound, bareReadings, equal⟩ :=
          parse_eq_ok_iff.1 (same.trans result)
        obtain rfl := Except.ok.inj (here.symm.trans split)
        obtain rfl := Except.ok.inj (there.symm.trans bareSplit)
        exact absurd (SourceUnit.mk.inj equal) (filterMap_ne pairs among readings bareReadings)
    · exact .inl among
  · rintro (fine | ⟨error, bareFailed, failed⟩)
    · have same := mapM_read_eq pairs fine
      calc parse bare
          = bares.mapM Declaration.read >>= fun found => pure ⟨found.filterMap id⟩ := by
            rw [parse, bareSplit]
            rfl
        _ = parse source := by
            rw [same, parse, split]
            rfl
    · rw [bareFailed, failed]

/-- Comments are white space except in pragmas and imports.  Without its comments, a file
has the same skeleton and the same items, or is refused alike.  Each item is read the same
exactly if it is not misread, and so is the file if that holds of all items up to the first
one that is refused; otherwise the two files do not have one tree. -/
theorem comments_matter_in_statements
    (source : String)
    (lexemes : List Lexeme)
    (reading : Lexeme.read source.toList = .ok lexemes) :
    let bare := String.ofList (lexemes.flatMap Lexeme.uncommented)
    skeleton bare.toList = skeleton source.toList ∧
    (∀ error, topLevelItems source.toList = .error error →
      parse source = .error error ∧ parse bare = .error error) ∧
    ∀ items, topLevelItems source.toList = .ok items →
      ∃ bares, topLevelItems bare.toList = .ok bares ∧
        List.Forall₂
          (fun item bare => bare.start = item.start ∧ bare.shown = item.shown ∧
            (Declaration.read bare = Declaration.read item ↔ ¬ Misread item bare))
          items bares ∧
        (parse bare = parse source ↔ ¬ MisreadAmong items bares ∨
          ∃ error, parse bare = .error error ∧ parse source = .error error) := by
  intro bare
  have text : bare.toList = lexemes.flatMap Lexeme.uncommented := String.toList_ofList
  have splitting := topLevelItems_uncommented reading
  rw [← text] at splitting
  refine ⟨text ▸ skeleton_uncommented reading, ?_, ?_⟩
  · intro error refused
    rcases splitting with ⟨other, failed, bareFailed⟩ | ⟨items, _, split, _⟩
    · obtain rfl := Except.error.inj (failed.symm.trans refused)
      rw [parse, parse, refused, bareFailed]
      exact ⟨rfl, rfl⟩
    · rw [refused] at split
      cases split
  · intro items split
    rcases splitting with ⟨error, failed, _⟩ | ⟨found, bares, same, bareSplit, pairs⟩
    · rw [split] at failed
      cases failed
    · obtain rfl := Except.ok.inj (same.symm.trans split)
      refine ⟨bares, bareSplit, ?_, parse_eq_iff split bareSplit pairs⟩
      exact pairs.imp fun item bare pair =>
        ⟨pair.start, pair.shown, Declaration.read_eq_iff pair⟩

/-- The lexemes of a pragma with a comment in front of its version. -/
def commentedPragma : List Lexeme :=
  "pragma solidity ".toList.map Lexeme.code ++
    .blockComment " 9 ".toList :: " 1;".toList.map Lexeme.code

/-- A version in a comment is taken for the version of the pragma. -/
theorem version_in_comment_misread :
    parse "pragma solidity /* 9 */ 1;" =
      .ok ⟨[.pragma ⟨"solidity", "/* 9 */ 1", "", some "9", 0, 1⟩]⟩ ∧
    parse (String.ofList (commentedPragma.flatMap Lexeme.uncommented)) =
      .ok ⟨[.pragma ⟨"solidity", "1", "", some "1", 0, 1⟩]⟩ ∧
    ∃ items bares, topLevelItems "pragma solidity /* 9 */ 1;".toList = .ok items ∧
      topLevelItems (String.ofList (commentedPragma.flatMap Lexeme.uncommented)).toList =
        .ok bares ∧
      MisreadAmong items bares := by
  have parsed : parse "pragma solidity /* 9 */ 1;" =
      .ok ⟨[.pragma ⟨"solidity", "/* 9 */ 1", "", some "9", 0, 1⟩]⟩ := by
    decide +kernel
  have bareParsed : parse (String.ofList (commentedPragma.flatMap Lexeme.uncommented)) =
      .ok ⟨[.pragma ⟨"solidity", "1", "", some "1", 0, 1⟩]⟩ := by
    decide +kernel
  have reading : Lexeme.read "pragma solidity /* 9 */ 1;".toList = .ok commentedPragma := by
    decide +kernel
  obtain ⟨items, split, -⟩ := parse_eq_ok_iff.1 parsed
  obtain ⟨bares, bareSplit, -, same⟩ :=
    (comments_matter_in_statements _ _ reading).2.2 items split
  refine ⟨parsed, bareParsed, items, bares, split, bareSplit, ?_⟩
  by_contra fine
  have equal := same.2 (.inl fine)
  rw [parsed, bareParsed] at equal
  revert equal
  decide

/-- A comment in a list of symbols does no harm if it stands behind a name. -/
example :
    parse "import \x7bA /* x */, B\x7d from 'a';" =
      parse "import \x7bA        , B\x7d from 'a';" := by
  decide +kernel

end ContractDoc
