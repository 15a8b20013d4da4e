import ContractDoc.Proofs.Source.Joined
import ContractDoc.Proofs.Tree.Read
import ContractDoc.Proofs.Tree.Spelled

/-!
# Contracts as they are written

A contract is written with its kind, its name, a list of parents that may have arguments, and
its body in braces.  Its head is read back whatever the name is and however the arguments are
nested, and its members are those of the items in its body.
-/

namespace ContractDoc

open Text

/-- Words begin with characters other than white space. -/
theorem Modifier.IsName.visible
    {name : List Char}
    (isName : IsName name)
    (rest : List Char) :
    ∀ c ∈ (name ++ rest).head?, isSpace c = false := by
  rw [List.head?_append_of_ne_nil _ isName.nonempty]
  exact fun c head => isSpace_eq_false_of_isNameChar (isName.inName c (List.mem_of_head? head))

/-- A word of word characters is one that may stand in the name of a modifier. -/
theorem Modifier.IsName.of_inWord
    {name : List Char}
    (nonempty : name ≠ [])
    (inWord : ∀ c ∈ name, isWordChar c = true) :
    IsName name :=
  ⟨nonempty, fun c member => Bool.or_eq_true_iff.2 (.inl (inWord c member))⟩

namespace Modifier.Apart

variable {text : List Char}

theorem isWordChar_eq_false (apart : Apart text) : ∀ c ∈ text.head?, isWordChar c = false :=
  fun c head => (Bool.or_eq_false_iff.1 (apart c head)).1

theorem startsInWord_eq_false (apart : Apart text) : startsInWord text = false := by
  cases text with
  | nil => rfl
  | cons c text => exact apart.isWordChar_eq_false c rfl

/-- A text starts with each word behind which no word goes on. -/
theorem startsWithWord_append
    (apart : Apart text)
    (word : List Char) :
    startsWithWord word (word ++ text) = true := by
  simp [startsWithWord, apart.startsInWord_eq_false]

end Modifier.Apart

theorem Text.isGap_space : IsGap [' '] :=
  ⟨by decide, List.forall_mem_singleton.2 rfl⟩

namespace Text.IsGap

variable {gap : List Char}

/-- White space ends a word. -/
theorem apart
    (isGap : IsGap gap)
    (rest : List Char) :
    Modifier.Apart (gap ++ rest) := by
  obtain ⟨c, blanks, rfl⟩ := List.exists_cons_of_ne_nil isGap.nonempty
  have space := isGap.blank c List.mem_cons_self
  exact Modifier.apart_cons (Modifier.isNameChar_eq_false_of_isSpace space) _

theorem skipSpace1?_append
    {rest : List Char}
    (isGap : IsGap gap)
    (starts : ∀ c ∈ rest.head?, isSpace c = false) :
    skipSpace1? (gap ++ rest) = some rest := by
  obtain ⟨c, blanks, rfl⟩ := List.exists_cons_of_ne_nil isGap.nonempty
  have spaced : startsWithSpace (c :: blanks ++ rest) = true :=
    isGap.blank c List.mem_cons_self
  rw [skipSpace1?, if_pos spaced, Modifier.skipSpace_append_of_blank isGap.blank,
    skipSpace_of_visible starts]

end Text.IsGap

namespace ContractDecl

/-! ## Contracts around a body -/

/-- The text of the head of a contract up to its brace, with what is read from it. -/
structure IsHead (front : List Char) (head : Head) : Prop where
  clear : '{' ∉ front
  steady : Item.Steady front
  reads : head? (front ++ ['{']) = some head

/-- A contract does not begin with a word other than those that open one. -/
theorem not_prefix_of_opening
    {text : List Char} {other : String}
    (opens : ∃ word ∈ openingWords, word.toList <+: text)
    (apart : ∀ word ∈ openingWords,
      ¬ word.toList <+: other.toList ∧ ¬ other.toList <+: word.toList) :
    ¬ other.toList <+: text := by
  intro begins
  obtain ⟨word, listed, wordBegins⟩ := opens
  obtain ⟨notShort, notLong⟩ := apart word listed
  exact (List.prefix_or_prefix_of_prefix wordBegins begins).elim notShort notLong

theorem opening_of_head?
    {text : List Char} {head : Head}
    (found : head? text = some head) :
    (opening? text).isSome = true ∧ ∃ word ∈ openingWords, word.toList <+: text := by
  simp only [head?, Option.bind_eq_bind, Option.bind_eq_some_iff, Prod.exists] at found
  obtain ⟨isAbstract, kind, rest, opened, -⟩ := found
  exact ⟨by rw [opened]; rfl, (fromBrace_of_opening? opened).1⟩

theorem head?_of_open?
    {item : Item} {head : Head} {items : List Item}
    (opened : open? item = .ok (head, items)) :
    head? item.shown = some head := by
  unfold open? at opened
  split at opened
  · next found _ =>
    obtain ⟨_, -, ⟨⟩⟩ := bind_eq_ok.1 opened
    exact found
  · cases opened

section

variable {front inner : List Char} {head : Head}

namespace IsHead

theorem head?_eq
    (isHead : IsHead front head)
    (rest : List Char) :
    head? (front ++ '{' :: rest) = some head :=
  head?_append_brace rest isHead.clear isHead.reads

theorem length_eq
    (isHead : IsHead front head) :
    head.length = (front ++ ['{']).length := by
  obtain ⟨body, fromBrace_eq, length_eq⟩ := fromBrace_of_head? isHead.reads
  rw [fromBrace_append isHead.clear] at fromBrace_eq
  obtain rfl : [] = body := (List.cons.inj fromBrace_eq).2
  exact length_eq

/-- A contract with a nested body is one item. -/
theorem isText
    (isHead : IsHead front head)
    (nested : Bracket.Nested inner) :
    Item.IsText (front ++ '{' :: (inner ++ ['}'])) := by
  obtain ⟨-, opens⟩ := opening_of_head? (isHead.head?_eq (inner ++ ['}']))
  refine .of_steady isHead.steady (.block nested) ?_ (not_prefix_of_opening opens (by decide))
  obtain ⟨word, listed, rest, same⟩ := opens
  have visible : ∀ word ∈ openingWords, word.toList.head?.map isSpace = some false := by
    decide
  obtain ⟨c, first, notSpace⟩ := Option.map_eq_some_iff.1 (visible word listed)
  obtain ⟨others, word_eq⟩ := List.head?_eq_some_iff.1 first
  rw [← same, word_eq]
  rintro d ⟨⟩
  exact notSpace

/-- A contract whose body is split is opened. -/
theorem open?_eq
    {start : Position} {items : List Item}
    (isHead : IsHead front head)
    (split : splitItems (start.advanceBy (front ++ ['{'])) (inner.map Glyph.kept) = .ok items) :
    open? ⟨start, (front ++ '{' :: (inner ++ ['}'])).map Glyph.kept⟩ = .ok (head, items) := by
  have whole : front ++ '{' :: (inner ++ ['}']) = front ++ ['{'] ++ (inner ++ ['}']) := by
    simp
  have last : (front ++ '{' :: (inner ++ ['}'])).getLast? = some '}' := by
    rw [whole, ← List.append_assoc, List.getLast?_concat]
  have items_eq :
      bodyItems ⟨start, (front ++ '{' :: (inner ++ ['}'])).map Glyph.kept⟩ head = .ok items := by
    rw [bodyItems, Item.raw, Glyph.map_raw_kept, isHead.length_eq, whole, List.take_left,
      ← List.map_drop, List.drop_left, ← List.map_dropLast, List.dropLast_concat]
    exact split
  unfold open?
  rw [Item.shown, Glyph.map_shown_kept, isHead.head?_eq, last]
  exact bind_eq_ok.2 ⟨items, items_eq, rfl⟩

end IsHead
end
end ContractDecl

/-- A contract that is opened has the members of the items of its body. -/
theorem ContractDecl.ofItem_eq_map
    {item : Item} {head : Head} {items : List Item}
    (opened : open? item = .ok (head, items)) :
    ContractDecl.ofItem item = (items.mapM Member.read).map fun readings => {
      name := String.ofList head.name
      kind := head.kind
      parents := head.parents
      body := readings.filterMap Member.Reading.toMember?
      isAbstract := head.isAbstract
      start := item.start.offset
      stop := item.stop
      line := item.line } := by
  rw [ofItem, opened]
  change (items.mapM Member.read >>= fun readings => _) = _
  cases items.mapM Member.read <;> rfl

/-- A contract that is opened is read if the items of its body are. -/
theorem ContractDecl.ofItem_of_open?
    {item : Item} {head : Head} {items : List Item} {readings : List Member.Reading}
    (opened : open? item = .ok (head, items))
    (members : items.mapM Member.read = .ok readings) :
    ContractDecl.ofItem item = .ok {
      name := String.ofList head.name
      kind := head.kind
      parents := head.parents
      body := readings.filterMap Member.Reading.toMember?
      isAbstract := head.isAbstract
      start := item.start.offset
      stop := item.stop
      line := item.line } := by
  rw [ofItem_eq_map opened, members]
  rfl

/-- An item with the head of a contract is read as a contract at the top level. -/
theorem Declaration.read_of_head?
    {item : Item} {head : ContractDecl.Head}
    (found : ContractDecl.head? item.shown = some head) :
    Declaration.read item =
      (ContractDecl.ofItem item).map fun decl => some (.contract decl) := by
  obtain ⟨isSome, opens⟩ := ContractDecl.opening_of_head? found
  have notOther {word : String} (apart : ∀ first ∈ ContractDecl.openingWords,
      ¬ first.toList <+: word.toList ∧ ¬ word.toList <+: first.toList) :
      ¬ startsWithWord word.toList item.shown = true :=
    fun starts => ContractDecl.not_prefix_of_opening opens apart (prefix_of_startsWithWord starts)
  unfold Declaration.read
  dsimp only
  rw [if_neg (notOther (by decide)), if_neg (notOther (by decide)), if_pos isSome]
  cases ContractDecl.ofItem item <;> rfl

/-- An item that is read as a contract is read so at the top level. -/
theorem Declaration.read_of_contract
    {item : Item} {decl : ContractDecl}
    (read : ContractDecl.ofItem item = .ok decl) :
    Declaration.read item = .ok (some (.contract decl)) := by
  obtain ⟨-, -, -, head, items, -, opened, -⟩ := ContractDecl.ofItem_eq_ok read
  rw [read_of_head? (ContractDecl.head?_of_open? opened), read]
  rfl

/-- A file whose skeleton is one item has this item. -/
theorem topLevelItems_of_isText
    {source : List Char} {found : List Glyph}
    (read : glyphs source = .ok found)
    (isText : Item.IsText (found.map Glyph.shown)) :
    topLevelItems source = .ok [⟨.origin, found⟩] := by
  have complete : Item.Complete ⟨.origin, found⟩ := Item.complete_iff.2 isText
  have cut : Cut .origin (found ++ []) [⟨.origin, found⟩] := .item complete .nil
  rw [List.append_nil] at cut
  exact bind_eq_ok.2 ⟨_, read, splitItems_eq_ok_iff_cut.2 cut⟩

/-- A file of code that is one item has this item. -/
theorem topLevelItems_single
    {source : List Char}
    (onlyCode : Lexeme.OnlyCode source)
    (isText : Item.IsText source) :
    topLevelItems source = .ok [⟨.origin, source.map Glyph.kept⟩] := by
  apply topLevelItems_of_isText (glyphs_of_onlyCode onlyCode)
  rwa [Glyph.map_shown_kept]

/-- A file that holds one contract has the members of the items in its body. -/
theorem parse_of_isHead
    {source front inner : List Char} {head : ContractDecl.Head} {items : List Item}
    (isHead : ContractDecl.IsHead front head)
    (split : splitItems (Position.origin.advanceBy (front ++ ['{'])) (inner.map Glyph.kept) =
      .ok items)
    (source_eq : source = front ++ '{' :: (inner ++ ['}']))
    (onlyCode : Lexeme.OnlyCode source) :
    parse (String.ofList source) =
      (items.mapM Member.read).map fun readings => ⟨[.contract {
        name := String.ofList head.name
        kind := head.kind
        parents := head.parents
        body := readings.filterMap Member.Reading.toMember?
        isAbstract := head.isAbstract
        start := 0
        stop := source.length
        line := 1 }]⟩ := by
  subst source_eq
  have nested : Bracket.Nested inner := by
    have tracked := (cut_of_splitItems split).nested
    rw [Glyph.map_shown_kept] at tracked
    exact Bracket.nested_iff_foldlM_track.2 tracked
  have found : ContractDecl.head?
      (Item.shown ⟨.origin, (front ++ '{' :: (inner ++ ['}'])).map Glyph.kept⟩) = some head := by
    rw [Item.shown, Glyph.map_shown_kept]
    exact isHead.head?_eq _
  have top := topLevelItems_single onlyCode (isHead.isText nested)
  unfold parse
  rw [String.toList_ofList, top]
  change ([_].mapM Declaration.read >>= fun declarations => _) = _
  rw [List.mapM_cons, Declaration.read_of_head? found,
    ContractDecl.ofItem_eq_map (isHead.open?_eq split)]
  cases items.mapM Member.read with
  | error _ => rfl
  | ok readings =>
    simp [Except.map, Item.stop, Item.line, Position.origin, bind, Except.bind, pure, Except.pure]

namespace ContractDecl

/-! ## Lists of parents -/

/-- A text as it may stand before the brace of a contract: no item ends in it, and it has no
opening brace. -/
structure Braceless (text : List Char) : Prop where
  steady : Item.Steady text
  clear : '{' ∉ text

namespace Braceless

variable {front back : List Char}

theorem append
    (braceless : Braceless front)
    (backBraceless : Braceless back) :
    Braceless (front ++ back) where
  steady := braceless.steady.append backBraceless.steady
  clear := List.not_mem_append braceless.clear backBraceless.clear

theorem of_clear (isClear : Item.Clear front) : Braceless front :=
  ⟨isClear.steady, isClear.noBlock⟩

theorem of_blank (blank : ∀ c ∈ front, isSpace c = true) : Braceless front :=
  of_clear (.of_blank blank)

end Braceless

/-- The arguments of a parent as they are written: none, or a nested text without braces in
parentheses. -/
inductive IsCall : List Char → Prop
  | nothing : IsCall []
  | arguments {spaces arguments : List Char}
      (blank : ∀ c ∈ spaces, isSpace c = true)
      (nested : Bracket.Nested arguments)
      (clear : '{' ∉ arguments) :
      IsCall (spaces ++ '(' :: (arguments ++ [')']))

/-- Parents as they are written, separated by commas, with their names. -/
inductive Parents : List Char → List (List Char) → Prop
  | last {name call : List Char}
      (isName : Modifier.IsName name)
      (isCall : IsCall call) :
      Parents (name ++ call) [name]
  | more {name call before behind list : List Char} {names : List (List Char)}
      (isName : Modifier.IsName name)
      (isCall : IsCall call)
      (beforeBlank : ∀ c ∈ before, isSpace c = true)
      (behindBlank : ∀ c ∈ behind, isSpace c = true)
      (rest : Parents list names) :
      Parents (name ++ call ++ (before ++ ',' :: (behind ++ list))) (name :: names)

/-- What stands between the name of a contract and its brace: white space, or a list of
parents. -/
inductive IsInheritance : List Char → List (List Char) → Prop
  | nothing {blank : List Char}
      (isBlank : ∀ c ∈ blank, isSpace c = true) :
      IsInheritance blank []
  | listed {gap behind list blank : List Char} {names : List (List Char)}
      (isGap : IsGap gap)
      (behindIsGap : IsGap behind)
      (parents : Parents list names)
      (isBlank : ∀ c ∈ blank, isSpace c = true) :
      IsInheritance (gap ++ ("is".toList ++ (behind ++ (list ++ blank)))) names

namespace IsCall

variable {name call : List Char}

theorem braceless (isCall : IsCall call) : Braceless call := by
  cases isCall with
  | nothing => exact .of_blank (List.forall_mem_nil _)
  | arguments blank nested clear =>
    exact .append (.of_blank blank) ⟨.parentheses nested, by simp [clear]⟩

/-- The name of a parent ends where its arguments begin. -/
theorem apart (isCall : IsCall call) : Modifier.Apart call := by
  cases isCall with
  | nothing =>
    intro c head
    cases head
  | arguments blank _ _ => exact Modifier.apart_of_blank blank (Modifier.apart_cons rfl _)

theorem parentName_append
    (isCall : IsCall call)
    (isName : Modifier.IsName name) :
    parentName (name ++ call) = name :=
  (span_append isName.inName isCall.apart).1

/-- No comma separates the arguments of a parent. -/
theorem noComma (isCall : IsCall call) : Bracket.NoneOutside (· == ',') call := by
  cases isCall with
  | nothing => exact .of_forall (List.forall_mem_nil _)
  | arguments blank nested _ =>
    refine .append (.of_forall ?_) (Item.Clear.of_blank blank).nested (.enclose nested rfl rfl rfl)
    intro c member
    rw [beq_eq_false_iff_ne]
    rintro rfl
    cases blank _ member

/-- A parent with its arguments is one part of a list. -/
theorem isPart
    (isCall : IsCall call)
    (isName : Modifier.IsName name) :
    Nesting.IsPart (· == ',') (name ++ call) := by
  have visible : ∀ c ∈ name, isSpace c = false := fun c member =>
    Modifier.isSpace_eq_false_of_isNameChar (isName.inName c member)
  have nameNoComma : Bracket.NoneOutside (· == ',') name := by
    refine .of_forall fun c member => ?_
    rw [beq_eq_false_iff_ne]
    rintro rfl
    cases isName.inName _ member
  refine .of_nested (isName.isClear.nested.append isCall.braceless.steady.nested)
    (nameNoComma.append isName.isClear.nested isCall.noComma) (by simp [isName.nonempty]) ?_ ?_
  · exact isName.visible call
  · cases isCall with
    | nothing =>
      rw [List.append_nil]
      exact fun c last => visible c (List.mem_of_getLast? last)
    | arguments =>
      rw [← List.cons_append, ← List.append_assoc, ← List.append_assoc, List.getLast?_concat]
      rintro c ⟨⟩
      rfl

end IsCall

namespace Parents

variable {list : List Char} {names : List (List Char)}

theorem braceless (parents : Parents list names) : Braceless list := by
  induction parents with
  | last isName isCall => exact .append (.of_clear isName.isClear) isCall.braceless
  | more isName isCall beforeBlank behindBlank _ ih =>
    have comma : Braceless [','] := .of_clear ⟨.plain rfl rfl .nil, by decide, by decide⟩
    exact .append (.append (.of_clear isName.isClear) isCall.braceless)
      (.append (.of_blank beforeBlank) (.append comma (.append (.of_blank behindBlank) ih)))

theorem ne_nil (parents : Parents list names) : list ≠ [] := by
  cases parents with
  | last isName _ => simp [isName.nonempty]
  | more isName _ _ _ _ => simp [isName.nonempty]

/-- A list of parents begins and ends with characters other than white space. -/
theorem visible (parents : Parents list names) :
    (∀ c ∈ list.head?, isSpace c = false) ∧ ∀ c ∈ list.getLast?, isSpace c = false := by
  induction parents with
  | last isName isCall => exact ⟨(isCall.isPart isName).starts, (isCall.isPart isName).ends⟩
  | @more name call before behind list names isName isCall _ _ rest ih =>
    refine ⟨?_, ?_⟩
    · rw [List.head?_append_of_ne_nil _ (isCall.isPart isName).nonempty]
      exact (isCall.isPart isName).starts
    · have whole : name ++ call ++ (before ++ ',' :: (behind ++ list)) =
          name ++ call ++ (before ++ ',' :: behind) ++ list := by
        simp
      rw [whole, List.getLast?_append_of_ne_nil _ rest.ne_nil]
      exact ih.2

/-- The parents of a list are split at its commas. -/
theorem exists_joined (parents : Parents list names) :
    ∃ parts, Nesting.Joined (· == ',') list parts ∧ parts.map parentName = names := by
  induction parents with
  | @last name call isName isCall =>
    have single := Nesting.Joined.part (isCall.isPart isName) .nil .nil
    rw [List.append_nil] at single
    exact ⟨[name ++ call], single, by simp [isCall.parentName_append isName]⟩
  | @more name call before behind list names isName isCall beforeBlank behindBlank _ ih =>
    obtain ⟨parts, joined, names_eq⟩ := ih
    refine ⟨(name ++ call) :: parts, ?_, by simp [isCall.parentName_append isName, names_eq]⟩
    refine .part (isCall.isPart isName) (.of_blank beforeBlank (.cons_of_cut rfl _)) ?_
    exact .of_gaps (fun c member => .inl (beforeBlank c member)) (.gap (.inr rfl)
      (.of_gaps (fun c member => .inl (behindBlank c member)) joined))

theorem ne_nil_of_mem (parents : Parents list names) : ∀ name ∈ names, name ≠ [] := by
  induction parents with
  | last isName _ => simpa using isName.nonempty
  | more isName _ _ _ _ ih => exact List.forall_mem_cons.2 ⟨isName.nonempty, ih⟩

/-- The names of parents are read back. -/
theorem parentNames_eq (parents : Parents list names) :
    parentNames list = names.map String.ofList := by
  obtain ⟨parts, joined, names_eq⟩ := parents.exists_joined
  have split : Nesting.splitOn ',' list = parts := Nesting.splitBy_of_joined (by decide) joined
  have kept : names.filter (!·.isEmpty) = names := by
    refine List.filter_eq_self.2 fun name member => ?_
    simp [parents.ne_nil_of_mem name member]
  rw [parentNames, split, names_eq, kept]

end Parents

/-! ## Heads -/

/-- Words are passed over with the white space behind them. -/
theorem behindWord?_append
    {word : String} {gap rest : List Char}
    (isGap : IsGap gap)
    (starts : ∀ c ∈ rest.head?, isSpace c = false) :
    behindWord? word (word.toList ++ (gap ++ rest)) = some rest := by
  have begins : word.toList.isPrefixOf (word.toList ++ (gap ++ rest)) = true :=
    List.isPrefixOf_iff_prefix.2 (List.prefix_append _ _)
  rw [behindWord?, if_pos begins, ← String.length_toList, List.drop_left,
    isGap.skipSpace1?_append starts]

/-- A list of parents ends at the first brace. -/
theorem inheritance?_of_behindWord?
    {text list rest : List Char}
    (listed : behindWord? "is" (skipSpace text) = some (list ++ '{' :: rest))
    (clear : '{' ∉ list) :
    inheritance? text = some (dropTrailingSpace list, rest) := by
  have inside : ∀ c ∈ list, (c != '{') = true := by
    intro c member
    simpa using ne_of_mem_of_not_mem member clear
  unfold inheritance?
  dsimp only
  rw [behindWord?_eq, listed]
  simp [List.dropWhile_append_of_pos inside, List.takeWhile_append_of_pos inside]

namespace IsInheritance

variable {clause : List Char} {names : List (List Char)}

theorem braceless (inherits : IsInheritance clause names) : Braceless clause := by
  cases inherits with
  | nothing isBlank => exact .of_blank isBlank
  | listed isGap behindIsGap parents isBlank =>
    have word : Braceless "is".toList := .of_clear ⟨by decide, by decide, by decide⟩
    exact .append (.of_blank isGap.blank) (.append word (.append (.of_blank behindIsGap.blank)
      (.append parents.braceless (.of_blank isBlank))))

/-- The name of a contract ends where its parents or its brace follow. -/
theorem apart (inherits : IsInheritance clause names) : Modifier.Apart (clause ++ ['{']) := by
  cases inherits with
  | nothing isBlank => exact Modifier.apart_of_blank isBlank (Modifier.apart_cons rfl [])
  | listed isGap _ _ _ =>
    rw [List.append_assoc]
    exact isGap.apart _

/-- The parents of a contract are read back. -/
theorem exists_inheritance? (inherits : IsInheritance clause names) :
    ∃ list, inheritance? (clause ++ ['{']) = some (list, []) ∧
      parentNames list = names.map String.ofList := by
  cases inherits with
  | nothing isBlank =>
    refine ⟨[], ?_, rfl⟩
    unfold inheritance?
    rw [Modifier.skipSpace_append_of_blank isBlank]
    rfl
  | @listed gap behind list blank names isGap behindIsGap parents isBlank =>
    refine ⟨list, ?_, parents.parentNames_eq⟩
    obtain ⟨starts, ends⟩ := parents.visible
    have clear := parents.braceless.clear
    have skipped : skipSpace (gap ++ ("is".toList ++ (behind ++ (list ++ blank))) ++ ['{']) =
        "is".toList ++ (behind ++ (list ++ blank ++ ['{'])) := by
      rw [List.append_assoc, Modifier.skipSpace_append_of_blank isGap.blank]
      simp [skipSpace, isSpace]
    have listed : behindWord? "is" ("is".toList ++ (behind ++ (list ++ blank ++ ['{']))) =
        some (list ++ blank ++ ['{']) := by
      refine behindWord?_append behindIsGap ?_
      rwa [List.append_assoc, List.head?_append_of_ne_nil _ parents.ne_nil]
    rw [← skipped] at listed
    rw [inheritance?_of_behindWord? listed
      (List.not_mem_append clear (Item.Clear.of_blank isBlank).noBlock),
      dropTrailingSpace_append isBlank ends]

end IsInheritance

/-- The longest name of a contract is tried first. -/
theorem nameUpTo?_append
    {name rest parents body : List Char}
    (nonempty : name ≠ [])
    (found : inheritance? rest = some (parents, body)) :
    nameUpTo? (name ++ rest) name.length = some (name, parents, body) := by
  obtain ⟨c, others, rfl⟩ := List.exists_cons_of_ne_nil nonempty
  rw [List.length_cons, nameUpTo?, ← List.length_cons, List.drop_left, found, List.take_left]

/-- The keyword of a kind is found as this kind. -/
theorem find?_kinds
    {rest : List Char}
    (kind : ContractKind)
    (apart : Modifier.Apart rest) :
    (kinds.find? fun other => startsWithWord other.keyword.toList (kind.keyword.toList ++ rest)) =
      some kind := by
  have starts := apart.startsWithWord_append kind.keyword.toList
  cases kind with
  | contract => exact List.find?_cons_of_pos starts
  | library =>
    rw [kinds, List.find?_cons_of_neg Bool.false_ne_true]
    exact List.find?_cons_of_pos starts
  | interface =>
    rw [kinds, List.find?_cons_of_neg Bool.false_ne_true,
      List.find?_cons_of_neg Bool.false_ne_true]
    exact List.find?_cons_of_pos starts

/-- A contract as it is written: the parts of its text up to the brace. -/
structure Spelling where
  /-- White space behind the word `abstract`, if the contract begins with it. -/
  abstractGap : Option (List Char)
  kind : ContractKind
  gap : List Char
  name : List Char
  /-- What stands between the name and the brace. -/
  clause : List Char
  parents : List (List Char)
  abstractIsGap : ∀ spaces ∈ abstractGap, IsGap spaces
  isGap : IsGap gap
  nonempty : name ≠ []
  inName : ∀ c ∈ name, isWordChar c = true
  inherits : IsInheritance clause parents

/-- Without the word `abstract` there is no gap behind it. -/
theorem isGap_of_none : ∀ spaces ∈ (none : Option (List Char)), IsGap spaces := nofun

namespace Spelling

variable (contract : Spelling)

/-- The text of a contract from its kind on, up to the brace. -/
def fromKind : List Char :=
  contract.kind.keyword.toList ++ (contract.gap ++ (contract.name ++ contract.clause))

/-- The text of a contract up to its brace. -/
def text : List Char :=
  match contract.abstractGap with
  | none => contract.fromKind
  | some spaces => "abstract".toList ++ (spaces ++ contract.fromKind)

/-- What the head of a contract says. -/
def head : Head where
  name := contract.name
  kind := contract.kind
  parents := contract.parents.map String.ofList
  isAbstract := contract.abstractGap.isSome
  length := contract.text.length + 1

theorem braceless_text : Braceless contract.text := by
  have keyword : Braceless contract.kind.keyword.toList := by
    cases contract.kind <;> exact .of_clear ⟨by decide, by decide, by decide⟩
  have name : Braceless contract.name :=
    .of_clear (.of_class (by decide) (by decide) contract.inName)
  have fromKind : Braceless contract.fromKind :=
    .append keyword (.append (.of_blank contract.isGap.blank)
      (.append name contract.inherits.braceless))
  unfold text
  split
  · exact fromKind
  · next spaces isAbstract =>
    have word : Braceless "abstract".toList := .of_clear ⟨by decide, by decide, by decide⟩
    exact .append word (.append (.of_blank (contract.abstractIsGap spaces isAbstract).blank)
      fromKind)

/-- The words that open a contract are read back.  No keyword of a kind begins like the word
`abstract`. -/
theorem opening?_text :
    opening? (contract.text ++ ['{']) = some (contract.abstractGap.isSome, contract.kind,
      contract.gap ++ (contract.name ++ (contract.clause ++ ['{']))) := by
  have kind_eq : contract.fromKind ++ ['{'] = contract.kind.keyword.toList ++
      (contract.gap ++ (contract.name ++ (contract.clause ++ ['{']))) := by
    simp [fromKind]
  have behind : behindWord? "abstract" (contract.text ++ ['{']) =
      contract.abstractGap.map fun _ => contract.fromKind ++ ['{'] := by
    unfold text
    split
    · next none =>
      rw [none, kind_eq]
      cases contract.kind <;> rfl
    · next spaces isAbstract =>
      rw [isAbstract, List.append_assoc, List.append_assoc]
      refine behindWord?_append (contract.abstractIsGap spaces isAbstract) ?_
      rw [kind_eq]
      cases contract.kind <;> (rintro c ⟨⟩; rfl)
  have body : (behindWord? "abstract" (contract.text ++ ['{'])).getD (contract.text ++ ['{']) =
      contract.fromKind ++ ['{'] := by
    rw [behind, text]
    cases contract.abstractGap <;> rfl
  rw [opening?_eq, body, behind, kind_eq, find?_kinds _ (contract.isGap.apart _),
    Option.isSome_map, Option.map_some, ← String.length_toList, List.drop_left]

/-- The head of a contract is read back. -/
theorem isHead : IsHead contract.text contract.head := by
  refine ⟨contract.braceless_text.clear, contract.braceless_text.steady, ?_⟩
  obtain ⟨list, inherits, parents⟩ := contract.inherits.exists_inheritance?
  have isName : Modifier.IsName contract.name := .of_inWord contract.nonempty contract.inName
  have visible := isName.visible (contract.clause ++ ['{'])
  have word : leadingWord (contract.name ++ (contract.clause ++ ['{'])) = contract.name :=
    (span_append contract.inName contract.inherits.apart.isWordChar_eq_false).1
  have named := nameUpTo?_append contract.nonempty inherits
  simp only [head?, Option.bind_eq_bind, Option.bind_eq_some_iff, Prod.exists]
  refine ⟨_, _, _, contract.opening?_text, _, contract.isGap.skipSpace1?_append visible,
    contract.name, list, [], by rw [word, named], ?_⟩
  simp [head, parents]

end Spelling
end ContractDecl

/-- **Contracts are read back.**  A contract with a body that is divided into items, as it is
written, is read exactly if these items are.  It has the name and the kind that are written, is
abstract if it says so, has the parents that are listed, without their arguments and in their
order, and the members of its items in the order of the items, where those without
documentation give none. -/
theorem parse_written_contract
    {source body : List Char} {items : List Item}
    (contract : ContractDecl.Spelling)
    (divides : Divides (Position.origin.advanceBy (contract.text ++ ['{']))
      (body.map Glyph.kept) items)
    (source_eq : source = contract.text ++ '{' :: (body ++ ['}']))
    (onlyCode : Lexeme.OnlyCode source) :
    parse (String.ofList source) =
      (items.mapM Member.read).map fun readings => ⟨[.contract {
        name := String.ofList contract.name
        kind := contract.kind
        parents := contract.parents.map String.ofList
        body := readings.filterMap Member.Reading.toMember?
        isAbstract := contract.abstractGap.isSome
        start := 0
        stop := source.length
        line := 1 }]⟩ :=
  parse_of_isHead contract.isHead (splitItems_eq_ok_iff_cut.2 divides.cut) source_eq onlyCode

namespace ContractDecl

/-- Two parents, of which the first one begins like the word before it and has arguments. -/
theorem isInheritance_isle :
    IsInheritance " is is.A(f(1, 2)), B ".toList ["is.A".toList, "B".toList] := by
  have isName {name : List Char} (nonempty : name ≠ [])
      (inName : name.all Modifier.isNameChar = true) : Modifier.IsName name :=
    ⟨nonempty, List.all_eq_true.1 inName⟩
  have last := Parents.last (isName (by decide) (by decide : "B".toList.all _ = true)) .nothing
  have isCall := @IsCall.arguments [] "f(1, 2)".toList (List.forall_mem_nil _) (by decide)
    (by decide)
  have list := @Parents.more _ _ [] [' '] _ _
    (isName (by decide) (by decide : "is.A".toList.all _ = true)) isCall
    (List.forall_mem_nil _) isGap_space.blank last
  exact .listed isGap_space isGap_space list isGap_space.blank

/-- A contract whose name and whose first parent begin like the word between them. -/
def Spelling.isle : Spelling where
  abstractGap := some [' ']
  kind := .contract
  gap := [' ']
  name := "isle".toList
  clause := " is is.A(f(1, 2)), B ".toList
  parents := ["is.A".toList, "B".toList]
  abstractIsGap := by
    rintro _ ⟨⟩
    exact isGap_space
  isGap := isGap_space
  nonempty := by decide
  inName := List.all_eq_true.1 (by decide)
  inherits := isInheritance_isle

end ContractDecl

/-- This contract with two items, of which the first one has no documentation. -/
def isleSource : String :=
  "abstract contract isle is is.A(f(1, 2)), B \x7b using L for uint; event E(uint a); \x7d"

/-- A contract is read back with its parents and with the one member of its items. -/
theorem isle_read_back :
    parse isleSource =
      .ok ⟨[.contract {
        name := "isle"
        kind := .contract
        parents := ["is.A", "B"]
        body := [.event {
          name := "E"
          params := [⟨"uint", some "a", none, false⟩]
          isAnonymous := false
          start := 63
          line := 1 }]
        isAbstract := true
        start := 0
        stop := 81
        line := 1 }]⟩ := by
  have split : splitItems ⟨44, 1⟩ (" using L for uint; event E(uint a); ".toList.map Glyph.kept) =
      .ok [⟨⟨45, 1⟩, "using L for uint;".toList.map Glyph.kept⟩,
        ⟨⟨63, 1⟩, "event E(uint a);".toList.map Glyph.kept⟩] := rfl
  have onlyCode : Lexeme.OnlyCode isleSource.toList :=
    .of_notMem (by decide) (by decide) (by decide)
  have read := parse_written_contract .isle (cut_of_splitItems split).divides (by decide) onlyCode
  rw [String.ofList_toList] at read
  exact read

end ContractDoc
