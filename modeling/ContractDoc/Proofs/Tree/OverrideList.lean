import ContractDoc.Proofs.Tree.Attribute

/-!
# The attribute `override` with a list

The word `override` is an attribute of a state variable, but with a list of contracts behind it
it is none: the word and the list are read as part of the type.  Nothing else of the variable
depends on the list, and the word alone changes the variable only where it cuts the attributes of
a function type.
-/

namespace ContractDoc

open Text

namespace VariableDecl

/-! ## Declarations around a place -/

/-- Whether an item is read as a state variable depends on its first word, on its last character
and on whether it has a function type. -/
theorem read_of_alike
    {item other : Item} {decl : VariableDecl}
    (read : Member.read item = .ok (.member (.stateVariable decl)))
    (word : leadingWord other.shown = leadingWord item.shown)
    (functionType : hasFunctionType other.shown = hasFunctionType item.shown)
    (last : other.shown.getLast? = item.shown.getLast?) :
    ofItem? item = some decl ∧ Member.read other = .ok (Member.readVariable other) := by
  have found (readVariable : Member.readVariable item = .member (.stateVariable decl)) :
      ofItem? item = some decl := by
    unfold Member.readVariable at readVariable
    split at readVariable
    · next same =>
      cases readVariable
      exact same
    · cases readVariable
  unfold Member.read at read ⊢
  dsimp only at read ⊢
  rw [word, functionType, last]
  split at read
  · obtain ⟨_, -, ⟨⟩⟩ := bind_eq_ok.1 read
  · next notEvent =>
    rw [if_neg notEvent]
    split at read
    · next isType =>
      rw [if_pos isType]
      exact ⟨found (Except.ok.inj read), rfl⟩
    · next notType =>
      rw [if_neg notType]
      split at read
      · obtain ⟨_, -, ⟨⟩⟩ := bind_eq_ok.1 read
      · next notFunction =>
        rw [if_neg notFunction]
        split at read
        · cases read
        · next documented =>
          rw [if_neg documented]
          exact ⟨found (Except.ok.inj read), rfl⟩

/-- Whether a text names a function: white space and an identifier follow its keyword. -/
def namesFunction (text : List Char) : Bool :=
  "function".toList.isPrefixOf text && startsWithSpace (text.drop "function".length) &&
    (skipSpace (text.drop "function".length)).head?.any isIdentifierStart

/-- Whether a declaration names a function shows before every place among its attributes. -/
theorem namesFunction_append
    {front gap rest : List Char}
    (isGap : IsGap gap)
    (starts : rest.head?.any isIdentifierStart = true) :
    namesFunction (front ++ (gap ++ rest)) = namesFunction (front ++ ([' '] ++ ['_'])) := by
  have visible : ∀ c ∈ "function".toList, isSpace c = false :=
    isSpace_eq_false_of_mem_identifier (by decide)
  unfold namesFunction
  rw [isPrefixOf_append_gap visible isGap, isPrefixOf_append_gap visible isGap_space]
  cases begins : "function".toList.isPrefixOf front with
  | false => rfl
  | true =>
    obtain ⟨tail, rfl⟩ := List.isPrefixOf_iff_prefix.1 begins
    have behind (rest : List Char) :
        ("function".toList ++ tail ++ rest).drop "function".length = tail ++ rest := by
      rw [List.append_assoc]
      exact List.drop_left
    rw [behind, behind, Bool.true_and, Bool.true_and]
    by_cases none : skipSpace tail = []
    · have isBlank := blank_of_skipSpace_eq_nil none
      have named {gap rest : List Char} (isGap : IsGap gap)
          (starts : rest.head?.any isIdentifierStart = true) :
          (startsWithSpace (tail ++ (gap ++ rest)) &&
            (skipSpace (tail ++ (gap ++ rest))).head?.any isIdentifierStart) = true := by
        rw [Modifier.skipSpace_append_of_blank isBlank,
          Modifier.skipSpace_append_of_blank isGap.blank, (visible_of_identifierStart starts).1,
          starts, Bool.and_true]
        obtain ⟨c, blank, rfl⟩ := List.exists_cons_of_ne_nil isGap.nonempty
        cases tail with
        | nil => exact isGap.blank c List.mem_cons_self
        | cons d tail => exact isBlank d List.mem_cons_self
      rw [named isGap starts, named isGap_space rfl]
    · have kept (rest : List Char) : startsWithSpace (tail ++ rest) = startsWithSpace tail ∧
          (skipSpace (tail ++ rest)).head? = (skipSpace tail).head? := by
        rw [skipSpace_append_of_not_blank none, List.head?_append_of_ne_nil _ none]
        cases tail with
        | nil => exact absurd rfl none
        | cons d tail => exact ⟨rfl, rfl⟩
      rw [(kept _).1, (kept _).2, (kept _).1, (kept _).2]

/-- Attributes as they are written, each with white space behind it. -/
inductive Attributes : List Char → List String → Prop
  | nil : Attributes [] []
  | cons {word : String} {gap text : List Char} {words : List String}
      (listed : word ∈ attributes)
      (isGap : IsGap gap)
      (rest : Attributes text words) :
      Attributes (word.toList ++ (gap ++ text)) (word :: words)

theorem Attributes.row
    {text : List Char} {words : List String}
    (written : Attributes text words) :
    Row text (words.map String.toList) := by
  have identifiers : ∀ word ∈ attributes, isIdentifier word.toList = true := by decide
  induction written with
  | nil => exact .nil
  | cons listed isGap _ ih => exact .cons (.word (identifiers _ listed)) isGap ih

theorem Attributes.areAttributes
    {text : List Char} {words : List String}
    (written : Attributes text words) :
    ∀ token ∈ words.map String.toList, isOneOf attributes token = true := by
  induction written with
  | nil => exact List.forall_mem_nil _
  | cons listed _ _ ih => exact List.forall_mem_cons.2 ⟨isOneOf_iff.2 ⟨_, listed, rfl⟩, ih⟩

/-- A state variable as it is written around a place among its attributes: its type, maybe with
attributes, stands before the place, and attributes, the name and maybe a value behind it. -/
structure Place where
  front : List Char
  behind : List Char
  /-- The attributes behind the place. -/
  later : List String
  name : List Char
  ending : List Char
  isFront : IsFront front
  written : Attributes behind later
  identifier : isIdentifier name = true
  isEnding : Ending ending

namespace Place

variable (place : Place)

/-- The text of a state variable with a text at its place. -/
def text (inserted : List Char) : List Char :=
  place.front ++ (inserted ++ (place.behind ++ (place.name ++ (place.ending ++ [';']))))

/-- The tokens before the place. -/
def earlier : List (List Char) :=
  Nesting.tokens (Nesting.closeUp place.front)

/-- The state variable at a position that has given tokens at its place. -/
def decl (position : Position) (tokens : List (List Char)) : VariableDecl :=
  ofTokens position (place.earlier.headD [])
    (place.earlier.tail ++ (tokens ++ place.later.map String.toList)) place.name

/-- Whether the type goes on behind the place: it is a function type, and it has all that stands
between its parameters and the place and the attribute behind the place. -/
def CutsType : Prop :=
  place.earlier.tail.length <
    typeLength (place.earlier.headD []) (place.earlier.tail ++ place.later.map String.toList)

instance : Decidable place.CutsType :=
  inferInstanceAs (Decidable (_ < _))

section

variable {item : Item} {gap row : List Char} {tokens : List (List Char)}

/-- A declaration ends with a semicolon. -/
theorem text_append (gap row : List Char) :
    place.text (gap ++ row) = place.front ++
      (gap ++ (row ++ place.behind ++ (place.name ++ place.ending))) ++ [';'] := by
  simp [text]

/-- The tokens of a declaration up to its name. -/
theorem tokensOf_text
    (isGap : IsGap gap)
    (isRow : Row row tokens) :
    tokensOf (place.text (gap ++ row)).dropLast =
      place.earlier ++ (tokens ++ place.later.map String.toList ++ [place.name]) := by
  rw [text_append, List.dropLast_concat]
  exact tokensOf_around place.isFront isGap (isRow.append place.written.row) place.identifier
    place.isEnding

theorem ofItem?_eq
    (isGap : IsGap gap)
    (isRow : Row row tokens)
    (shown_eq : item.shown = place.text (gap ++ row)) :
    ofItem? item = some (place.decl item.start tokens) := by
  obtain ⟨first, middle, earlier⟩ := place.isFront.exists_tokens
  have read := place.tokensOf_text isGap isRow
  unfold decl
  rw [Place.earlier] at read ⊢
  rw [earlier, ← shown_eq, List.cons_append, ← List.append_assoc] at read
  rw [earlier]
  exact ofItem?_of_tokensOf read place.identifier

/-- A declaration with a row at its place is one item if it is one with white space there. -/
theorem isText_insert
    {blank : List Char}
    (blankIsGap : IsGap blank)
    (isText : Item.IsText (place.text blank))
    (isGap : IsGap gap)
    (isClear : Item.Clear row) :
    Item.IsText (place.text (gap ++ row)) := by
  refine .exchange isText place.isFront.nonempty place.isFront.nested
    (Item.Clear.of_blank blankIsGap.blank).nested (.append (.of_blank isGap.blank) isClear)
    (by simp) ?_
  have visible : ∀ c ∈ "import".toList, isSpace c = false :=
    isSpace_eq_false_of_mem_identifier (by decide)
  rw [List.append_assoc, ← List.isPrefixOf_iff_prefix, ← List.isPrefixOf_iff_prefix,
    isPrefixOf_append_gap visible isGap, isPrefixOf_append_gap visible blankIsGap]

/-- What decides whether a declaration is one of a state variable does not depend on what stands
at the place. -/
theorem alike
    (isGap : IsGap gap)
    (isRow : Row row tokens)
    (shown_eq : item.shown = place.text (gap ++ row)) :
    leadingWord item.shown = leadingWord place.front ∧
      hasFunctionType item.shown =
        (!namesFunction (place.front ++ ([' '] ++ ['_'])) &&
          !isOneOf functionAttributes place.name) ∧
      item.shown.getLast? = some ';' := by
  have last : item.shown.getLast? = some ';' := by
    rw [shown_eq, text_append, List.getLast?_concat]
  refine ⟨?_, ?_, last⟩
  · obtain ⟨c, blank, rfl⟩ := List.exists_cons_of_ne_nil isGap.nonempty
    have notWord := Modifier.isWordChar_eq_false_of_isSpace (isGap.blank c List.mem_cons_self)
    rw [shown_eq, text, List.append_assoc, List.cons_append, leadingWord_append_cons notWord]
  · obtain ⟨first, middle, earlier⟩ := place.isFront.exists_tokens
    have read := place.tokensOf_text isGap isRow
    have starts := (isRow.append place.written.row).starts place.identifier
      (place.ending ++ [';'])
    have named := @namesFunction_append place.front gap _ isGap starts
    have whole : place.front ++ (gap ++ (row ++ place.behind ++
        (place.name ++ (place.ending ++ [';'])))) = item.shown := by
      rw [shown_eq, text]
      simp
    have unfolded : hasFunctionType item.shown = (!namesFunction item.shown &&
        item.shown.getLast? == some ';' && decide (1 < (tokensOf item.shown.dropLast).length) &&
          (tokensOf item.shown.dropLast).getLast?.any fun token =>
            isIdentifier token && !isOneOf functionAttributes token) := rfl
    rw [whole] at named
    rw [← shown_eq, Place.earlier, earlier, ← List.append_assoc] at read
    have several : 1 < (first :: middle ++ (tokens ++ place.later.map String.toList) ++
        [place.name]).length := by
      simp only [List.length_append, List.length_cons, List.length_nil]
      omega
    rw [unfolded, named, last, read, decide_eq_true several, List.getLast?_concat]
    simp [place.identifier]

/-- If a declaration is read as a state variable, it is read so whatever row stands at its
place. -/
theorem read_of_read
    {other : Item} {otherGap otherRow : List Char} {otherTokens : List (List Char)}
    {state : VariableDecl}
    (isGap : IsGap gap)
    (isRow : Row row tokens)
    (shown_eq : item.shown = place.text (gap ++ row))
    (otherIsGap : IsGap otherGap)
    (otherIsRow : Row otherRow otherTokens)
    (otherShown : other.shown = place.text (otherGap ++ otherRow))
    (read : Member.read item = .ok (.member (.stateVariable state))) :
    state = place.decl item.start tokens ∧
      Member.read other =
        .ok (.member (.stateVariable (place.decl other.start otherTokens))) := by
  obtain ⟨word, functionType, last⟩ := place.alike isGap isRow shown_eq
  obtain ⟨otherWord, otherFunctionType, otherLast⟩ :=
    place.alike otherIsGap otherIsRow otherShown
  obtain ⟨found, otherRead⟩ := read_of_alike read (otherWord.trans word.symm)
    (otherFunctionType.trans functionType.symm) (otherLast.trans last.symm)
  rw [place.ofItem?_eq isGap isRow shown_eq] at found
  refine ⟨(Option.some.inj found).symm, ?_⟩
  rw [otherRead, Member.readVariable, place.ofItem?_eq otherIsGap otherIsRow otherShown]

end
end Place
end VariableDecl

/-! ## The attribute `override` -/

namespace VariableDecl

/-- What belongs to a function type does not begin like the word `override`. -/
theorem exists_cons_of_continuesType
    {token : List Char}
    (continues : continuesType token = true) :
    ∃ c rest, token = c :: rest ∧ c ≠ 'o' := by
  rcases Bool.or_eq_true_iff.1 continues with listed | returns
  · obtain ⟨word, member, rfl⟩ := isOneOf_iff.1 listed
    have begins : ∀ word ∈ functionTypeAttributes, word.toList.head?.any (· != 'o') = true := by
      decide
    obtain ⟨c, head, other⟩ := (Option.any_eq_true _ _).1 (begins word member)
    obtain ⟨rest, same⟩ := List.head?_eq_some_iff.1 head
    exact ⟨c, rest, same, by simpa using other⟩
  · obtain ⟨rest, rfl⟩ := List.isPrefixOf_iff_prefix.1 returns
    exact ⟨'r', _, rfl, by decide⟩

namespace Place

variable (place : Place)

/-- The attribute `override` with a list behind it. -/
def listToken (bases : List Char) : List Char :=
  "override".toList ++ '(' :: (bases ++ [')'])

theorem ofList_listToken
    (bases : List Char) :
    String.ofList (' ' :: listToken bases) = " override(" ++ String.ofList bases ++ ")" := by
  have text_eq : ' ' :: listToken bases = " override(".toList ++ bases ++ ")".toList := rfl
  rw [text_eq, String.ofList_append, String.ofList_append, String.ofList_toList,
    String.ofList_toList]

/-- A list behind the word `override` is added to the type, and nothing else changes. -/
theorem decl_list
    (position : Position)
    (bases : List Char) :
    place.decl position [listToken bases] =
      { place.decl position ["override".toList] with
        typeName := (place.decl position ["override".toList]).typeName ++
          (" override(" ++ String.ofList bases ++ ")") } := by
  rw [← ofList_listToken]
  exact ofTokens_insert_other place.written.areAttributes isIdle_override rfl rfl

/-- The word `override` changes nothing at a place that does not cut the type. -/
theorem decl_override
    (notCut : ¬ place.CutsType)
    (position : Position) :
    place.decl position ["override".toList] = place.decl position [] :=
  ofTokens_insert_idle place.written.areAttributes isIdle_override
    (typeLength_append_of_le (Nat.not_lt.1 notCut))

/-- At a place that cuts the type, the type goes on with a word that does not begin like
`override`. -/
theorem exists_typeName
    (cuts : place.CutsType)
    (position : Position) :
    ∃ c rest, c ≠ 'o' ∧ (place.decl position []).typeName =
      (place.decl position ["override".toList]).typeName ++ String.ofList (' ' :: c :: rest) := by
  obtain ⟨token, more, continues, types⟩ := exists_typeTokens_append cuts
  obtain ⟨c, rest, rfl, other⟩ := exists_cons_of_continuesType continues
  obtain ⟨overrideTypes, -⟩ := @tokens_insert_attribute (place.earlier.headD []) "override".toList
    place.earlier.tail _ place.written.areAttributes isIdle_override.ends
    isIdle_override.isAttribute
  have begins : ∃ behind, joinWith [' '] ((c :: rest) :: more) = c :: behind := by
    cases more with
    | nil => exact ⟨rest, joinWith_singleton _ _⟩
    | cons next more => exact ⟨_, joinWith_cons_cons _ _ _ _⟩
  obtain ⟨behind, joined⟩ := begins
  refine ⟨c, behind, other, ?_⟩
  have type_eq := spaced_append_cons (typeTokens_ne_nil (place.earlier.headD [])
    place.earlier.tail) (c :: rest) more
  rw [← types, joined] at type_eq
  exact type_eq.trans (congrArg (spaced · ++ _) overrideTypes.symm)

end Place
end VariableDecl

/-- **A list behind the attribute `override` becomes part of the type.**  Let a declaration be read
as a state variable, with its type before a place and attributes, the name and maybe a value
behind it.  With the word `override` at the place it is read as this variable, unless the place
cuts a function type.  With a list behind the word, whether or not white space stands between
them, it is read as with the word alone, but the list and the word are added to the type, which is
then never the one without them.  Both are single items if the declaration is one. -/
theorem override_list_read_as_type
    {item bare listed : Item} {state : VariableDecl}
    {gap before behind spaces bases : List Char}
    (place : VariableDecl.Place)
    (isGap : IsGap gap)
    (beforeIsGap : IsGap before)
    (behindIsGap : IsGap behind)
    (blank : ∀ c ∈ spaces, isSpace c = true)
    (isClear : Item.Clear bases)
    (noParen : '(' ∉ bases)
    (shown_eq : item.shown = place.text gap)
    (bareShown : bare.shown = place.text (before ++ ("override".toList ++ behind)))
    (listedShown : listed.shown = place.text
      (before ++ ("override".toList ++ (spaces ++ '(' :: (bases ++ [')']) ++ behind))))
    (bareStart : bare.start = item.start)
    (listedStart : listed.start = item.start)
    (read : Member.read item = .ok (.member (.stateVariable state))) :
    (∃ plain,
      Member.read bare = .ok (.member (.stateVariable plain)) ∧
      Member.read listed = .ok (.member (.stateVariable
        { plain with
          typeName := plain.typeName ++ (" override(" ++ String.ofList bases ++ ")") })) ∧
      plain.name = state.name ∧
      (plain = state ↔ ¬ place.CutsType) ∧
      plain.typeName ++ (" override(" ++ String.ofList bases ++ ")") ≠ state.typeName) ∧
    (Item.IsText item.shown → Item.IsText bare.shown ∧ Item.IsText listed.shown) := by
  have identifier : isIdentifier "override".toList = true := by decide
  have bareRow : VariableDecl.Row ("override".toList ++ (behind ++ [])) ["override".toList] :=
    .cons (.word identifier) behindIsGap .nil
  have listedRow := VariableDecl.Row.cons (.call identifier blank isClear.nested noParen)
    behindIsGap .nil
  rw [List.append_nil] at bareRow listedRow
  rw [List.append_assoc] at listedRow
  have blankShown := shown_eq
  rw [← List.append_nil gap] at shown_eq
  obtain ⟨rfl, bareRead⟩ :=
    place.read_of_read isGap .nil shown_eq beforeIsGap bareRow bareShown read
  obtain ⟨-, listedRead⟩ :=
    place.read_of_read isGap .nil shown_eq beforeIsGap listedRow listedShown read
  rw [bareStart] at bareRead
  rw [listedStart] at listedRead
  refine ⟨⟨_, bareRead, ?_, rfl, ?_, ?_⟩, ?_⟩
  · rw [← place.decl_list]
    exact listedRead
  · constructor
    · intro same cuts
      obtain ⟨c, rest, -, goesOn⟩ := place.exists_typeName cuts item.start
      rw [same] at goesOn
      exact append_ofList_cons_ne _ _ _ goesOn.symm
    · exact fun notCut => place.decl_override notCut item.start
  · rw [← VariableDecl.Place.ofList_listToken]
    by_cases cuts : place.CutsType
    · obtain ⟨c, rest, other, goesOn⟩ := place.exists_typeName cuts item.start
      rw [goesOn]
      intro same
      have lists := congrArg String.toList same
      simp only [String.toList_append, String.toList_ofList] at lists
      have behind := List.append_cancel_left lists
      exact other (List.cons.inj (List.cons.inj behind).2).1.symm
    · rw [place.decl_override cuts]
      exact append_ofList_cons_ne _ _ _
  · intro isText
    have word : Item.Clear "override".toList :=
      .of_class (by decide) (by decide) (inIdentifier identifier)
    have clearBehind : Item.Clear behind := .of_blank behindIsGap.blank
    rw [blankShown] at isText
    rw [bareShown, listedShown]
    refine ⟨place.isText_insert isGap isText beforeIsGap (word.append clearBehind),
      place.isText_insert isGap isText beforeIsGap (word.append ?_)⟩
    exact .append (.append (.of_blank blank) isClear.parentheses) clearBehind

/-- A public constant with a place between its attributes. -/
def VariableDecl.Place.limit : VariableDecl.Place where
  front := "uint public".toList
  behind := "constant ".toList
  later := ["constant"]
  name := "x".toList
  ending := " = 1".toList
  isFront := by
    refine ⟨by decide, ?_, by decide, by decide⟩
    rintro c ⟨⟩
    rfl
  written := @Attributes.cons "constant" [' '] [] [] (by decide) isGap_space .nil
  identifier := by decide
  isEnding := .value isGap_space.blank (by decide)

theorem VariableDecl.Place.isText_limit :
    Item.IsText (VariableDecl.Place.limit.text [' ']) := by
  have isClear : Item.Clear "uint public constant x = 1".toList :=
    ⟨by decide, by decide, by decide⟩
  have text_eq : VariableDecl.Place.limit.text [' '] =
      "uint public constant x = 1".toList ++ [';'] := by
    decide
  rw [text_eq]
  exact .of_clear isClear .semicolon rfl rfl (by decide)

/-- A contract with two parents. -/
def ContractDecl.Spelling.heir : ContractDecl.Spelling where
  abstractGap := none
  kind := .contract
  gap := [' ']
  name := "C".toList
  clause := " is B, D ".toList
  parents := ["B".toList, "D".toList]
  abstractIsGap := ContractDecl.isGap_of_none
  isGap := isGap_space
  nonempty := by decide
  inName := List.all_eq_true.1 (by decide)
  inherits :=
    have isName {name : List Char} (nonempty : name ≠ [])
        (inName : name.all Modifier.isNameChar = true) : Modifier.IsName name :=
      ⟨nonempty, List.all_eq_true.1 inName⟩
    have last := Parents.last (isName (by decide) (by decide : "D".toList.all _ = true)) .nothing
    .listed isGap_space isGap_space
      (@Parents.more _ _ [] [' '] _ _ (isName (by decide) (by decide : "B".toList.all _ = true))
        .nothing (List.forall_mem_nil _) isGap_space.blank last) isGap_space.blank

/-- Contracts with this constant and the attribute `override`, without and with a list. -/
def overrideSources : String × String :=
  ("contract C is B, D \x7b uint public override constant x = 1; \x7d",
    "contract C is B, D \x7b uint public override (B, D) constant x = 1; \x7d")

/-- The tree of a contract with a member. -/
def heirTree (member : Member) (stop : Nat) : SourceUnit :=
  ⟨[.contract {
    name := "C"
    kind := .contract
    parents := ["B", "D"]
    body := [member]
    isAbstract := false
    start := 0
    stop := stop
    line := 1 }]⟩

/-- A contract with one item in its body has the member that the item is read as. -/
theorem parse_heir
    {text : List Char} {member : Member} {source : String}
    (isText : Item.IsText text)
    (read : Member.read ⟨⟨21, 1⟩, text.map Glyph.kept⟩ = .ok (.member member))
    (source_eq : source.toList =
      ContractDecl.Spelling.heir.text ++ '{' :: ([' '] ++ (text ++ [' ']) ++ ['}']))
    (onlyCode : Lexeme.OnlyCode source.toList) :
    parse source = .ok (heirTree member source.toList.length) := by
  have single := splitItems_single isGap_space.blank isText isGap_space.blank
    (Position.origin.advanceBy (ContractDecl.Spelling.heir.text ++ ['{']))
  have members := mapM_eq_ok_iff.2 (.cons read .nil)
  have whole := parse_of_isHead ContractDecl.Spelling.heir.isHead single source_eq onlyCode
  rw [String.ofList_toList] at whole
  rw [whole]
  change (Except.map _ ([⟨⟨21, 1⟩, text.map Glyph.kept⟩].mapM Member.read)) = _
  rw [members]
  rfl

/-- The list is part of the type that is read, and the word alone is not. -/
theorem listed_override_in_type :
    parse overrideSources.1 =
        .ok (heirTree (.stateVariable ⟨"x", "uint", "public", true, 21, 1⟩) 59) ∧
      parse overrideSources.2 =
        .ok (heirTree (.stateVariable ⟨"x", "uint override(B, D)", "public", true, 21, 1⟩) 66) := by
  let place := VariableDecl.Place.limit
  let bareText := place.text ([' '] ++ ("override".toList ++ [' ']))
  let listedText := place.text
    ([' '] ++ ("override".toList ++ ([' '] ++ '(' :: ("B, D".toList ++ [')']) ++ [' '])))
  have read : Member.read ⟨⟨21, 1⟩, (place.text [' ']).map Glyph.kept⟩ =
      .ok (.member (.stateVariable ⟨"x", "uint", "public", true, 21, 1⟩)) := by
    decide +kernel
  obtain ⟨⟨plain, bareRead, listedRead, -, same, -⟩, areItems⟩ :=
    @override_list_read_as_type ⟨⟨21, 1⟩, (place.text [' ']).map Glyph.kept⟩
      ⟨⟨21, 1⟩, bareText.map Glyph.kept⟩ ⟨⟨21, 1⟩, listedText.map Glyph.kept⟩ _ [' '] [' '] [' ']
      [' '] "B, D".toList place isGap_space isGap_space isGap_space isGap_space.blank
      ⟨by decide, by decide, by decide⟩ (by decide) (Glyph.map_shown_kept _)
      (Glyph.map_shown_kept _) (Glyph.map_shown_kept _) rfl rfl read
  obtain rfl := same.2 (by decide)
  rw [Item.shown_map_kept, Item.shown_map_kept, Item.shown_map_kept] at areItems
  obtain ⟨bareIsText, listedIsText⟩ := areItems VariableDecl.Place.isText_limit
  exact ⟨parse_heir bareIsText bareRead (by decide)
      (.of_notMem (by decide) (by decide) (by decide)),
    parse_heir listedIsText listedRead (by decide)
      (.of_notMem (by decide) (by decide) (by decide))⟩

end ContractDoc
