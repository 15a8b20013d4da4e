import ContractDoc.Proofs.Tree.Contract
import ContractDoc.Proofs.Tree.Parameter

/-!
# State variables as they are written

A state variable is written with the tokens of its type, its attributes and its name, and it
may be initialized.  A contract with one state variable in its body is read back: it has this
variable and no other member, and nothing depends on the value with which it is initialized.
-/

namespace ContractDoc

open Text

namespace Item

/-- The characters that end items and blocks, and those that open blocks. -/
def isMark (c : Char) : Bool :=
  c == ';' || c == '{' || c == '}'

/-- No item ends in a nested text that has its semicolons and blocks inside of other
brackets. -/
theorem Steady.of_noneOutside
    {text : List Char}
    (nested : Bracket.Nested text)
    (none : Bracket.NoneOutside isMark text) :
    Steady text := by
  refine ⟨nested, fun front begins frontNested => ⟨?_, ?_⟩⟩
  · intro last
    obtain ⟨before, rfl⟩ := List.getLast?_eq_some_iff.1 last
    cases none before ';' begins (frontNested.of_concat ⟨rfl, rfl⟩)
  · intro last
    obtain ⟨before, inside, rfl, beforeNested⟩ := frontNested.exists_block last
    have opened : before ++ ['{'] <+: before ++ '{' :: inside := by simp
    cases none before '{' (opened.trans begins) beforeNested

end Item

namespace Nesting

/-- The search for an assignment passes over a text without equals signs outside of its
brackets. -/
theorem beforeAssignmentFrom_append
    {previous : Option Char} {start : Int} {text : List Char}
    (none : ∀ front, front ++ ['='] <+: text → start + depth front ≠ 0)
    (rest : List Char) :
    beforeAssignmentFrom previous start (text ++ rest) =
      text.length + beforeAssignmentFrom (text.getLast?.or previous) (start + depth text) rest := by
  induction text generalizing previous start with
  | nil => simp
  | cons c text ih =>
    have textNone : ∀ front, front ++ ['='] <+: text → step start c + depth front ≠ 0 := by
      intro front begins
      have outside := none (c :: front) (List.cons_prefix_cons.2 ⟨rfl, begins⟩)
      rw [depth_cons] at outside
      rw [step_eq]
      omega
    have passed : ¬ (c = '=' ∧ start = 0 ∧ isAssignment previous (text ++ rest).head? = true) := by
      rintro ⟨rfl, rfl, -⟩
      exact none [] (by simp) (by simp)
    have last : (c :: text).getLast?.or previous = text.getLast?.or (some c) := by
      rw [List.getLast?_cons]
      cases text.getLast? <;> rfl
    have deeper : step start c + depth text = start + depth (c :: text) := by
      rw [step_eq, depth_cons, Int.add_assoc]
    rw [List.cons_append, beforeAssignmentFrom, if_neg passed, ih textNone, last, deeper,
      List.length_cons]
    omega

/-- An equals sign with white space around it assigns. -/
theorem beforeAssignmentFrom_assigned
    (previous : Option Char)
    (value : List Char) :
    beforeAssignmentFrom previous 0 (' ' :: '=' :: ' ' :: value) = 1 := by
  simp [beforeAssignmentFrom, isAssignment, comparesWithNext, step, Bracket.ofOpening?,
    Bracket.ofClosing?]

/-- An assignment, or nothing. -/
def assigned : Option (List Char) → List Char
  | none => []
  | some value => ' ' :: '=' :: ' ' :: value

/-- Before an assignment stands the part that it follows. -/
theorem strip_beforeAssignment
    {part : List Char}
    (isPart : IsPart (· == '=') part)
    (value : Option (List Char)) :
    strip (beforeAssignment (part ++ assigned value)) = part := by
  have none : ∀ front, front ++ ['='] <+: part → (0 : Int) + depth front ≠ 0 := by
    intro front begins outside
    cases isPart.uncut front '=' begins (by omega)
  have index := @beforeAssignmentFrom_append Option.none 0 part none (assigned value)
  have trimmed {trail : List Char} (trailBlank : ∀ c ∈ trail, isSpace c = true) :
      strip (part ++ trail) = part :=
    @strip_append [] part trail (List.forall_mem_nil _) trailBlank isPart.starts isPart.ends
  rw [isPart.depth_eq, Int.add_zero] at index
  rw [beforeAssignment, assignmentIndex, index]
  cases value with
  | none =>
    simpa [assigned, beforeAssignmentFrom] using trimmed (List.forall_mem_nil _)
  | some value =>
    rw [assigned, beforeAssignmentFrom_assigned, List.take_length_add_append]
    exact trimmed isGap_space.blank

end Nesting

namespace VariableDecl

/-! ## Spellings -/

/-- The words that open other members. -/
def otherWords : List String :=
  "event" :: (FunctionDecl.keywords ++ Member.undocumented)

/-- The attributes that say who may read a variable. -/
def visibilities : List String := ["public", "private", "internal"]

/-- A token of the type of a state variable. -/
@[mk_iff]
structure IsTypeToken (token : List Char) : Prop where
  isToken : Nesting.IsToken token
  noAssignment : Bracket.NoneOutside (· == '=') token
  noMark : Bracket.NoneOutside Item.isMark token

instance (token : List Char) : Decidable (IsTypeToken token) :=
  decidable_of_iff _ (isTypeToken_iff token).symm

/-- The value with which a state variable is initialized. -/
@[mk_iff]
structure IsInitializer (value : List Char) : Prop where
  nested : Bracket.Nested value
  noMark : Bracket.NoneOutside Item.isMark value

instance (value : List Char) : Decidable (IsInitializer value) :=
  decidable_of_iff _ (isInitializer_iff value).symm

/-- A state variable as it is written.  Its first token does not open another member, and the
other tokens of its type are no attributes. -/
structure Spelling where
  first : List Char
  /-- The tokens of the type behind the first one. -/
  others : List (List Char)
  attributes : List String
  name : List Char
  initializer : Option (List Char)
  areTypes : ∀ token ∈ first :: others, IsTypeToken token
  opensNone : ∀ word ∈ otherWords, word.toList ≠ leadingWord first
  notAttribute : ∀ token ∈ others, ∀ word ∈ VariableDecl.attributes, word.toList ≠ token
  areAttributes : ∀ word ∈ attributes, word ∈ VariableDecl.attributes
  identifier : isIdentifier name = true
  isInitializer : ∀ value ∈ initializer, IsInitializer value

namespace Spelling

variable (state : Spelling)

/-- The tokens of a state variable. -/
def tokens : List (List Char) :=
  state.first :: (state.others ++ (state.attributes.map String.toList ++ [state.name]))

/-- The text of a state variable up to its semicolon. -/
def front : List Char :=
  joinWith [' '] state.tokens ++ Nesting.assigned state.initializer

/-- The text of a state variable. -/
def text : List Char :=
  state.front ++ [';']

/-- The first attribute that says who may read a variable. -/
def visibility? : Option String :=
  state.attributes.find? (visibilities.contains ·)

/-- The state variable that is written, at a position. -/
def decl (position : Position) : VariableDecl where
  name := String.ofList state.name
  typeName := spaced (state.first :: state.others)
  visibility := state.visibility?.getD "internal"
  isConstant := state.attributes.contains "constant"
  start := position.offset
  line := position.line

/-- A state variable is written with tokens that have neither equals signs nor ends of items
outside of brackets. -/
theorem isTypeToken_of_mem_tokens : ∀ token ∈ state.tokens, IsTypeToken token := by
  have ofIdentifier {name : List Char} (identifier : isIdentifier name = true) :
      IsTypeToken name := by
    refine ⟨isToken_of_isIdentifier identifier, noneOutside_of_isIdentifier identifier ?_,
      noneOutside_of_isIdentifier identifier ?_⟩
    · intro c sign
      rw [beq_iff_eq.1 sign]
      rfl
    · intro c mark
      simp only [Item.isMark, Bool.or_eq_true, beq_iff_eq] at mark
      rcases mark with (rfl | rfl) | rfl <;> rfl
  have attributes : ∀ word ∈ VariableDecl.attributes, isIdentifier word.toList = true := by
    decide
  intro token member
  rw [tokens, ← List.cons_append] at member
  rcases List.mem_append.1 member with isType | rest
  · exact state.areTypes token isType
  · rcases List.mem_append.1 rest with isAttribute | isName
    · obtain ⟨word, listed, rfl⟩ := List.mem_map.1 isAttribute
      exact ofIdentifier (attributes word (state.areAttributes word listed))
    · rw [List.mem_singleton.1 isName]
      exact ofIdentifier state.identifier

/-- The tokens of a state variable are one part of a text that is split at characters which
they have only inside of their brackets. -/
theorem isPart_tokens
    {isCut : Char → Bool}
    (notSpace : isCut ' ' = false)
    (uncut : ∀ token, IsTypeToken token → Bracket.NoneOutside isCut token) :
    Nesting.IsPart isCut (joinWith [' '] state.tokens) := by
  have areTypes := state.isTypeToken_of_mem_tokens
  exact Nesting.isPart_joinWith (fun token member => (areTypes token member).isToken)
    (List.cons_ne_nil _ _) notSpace fun token member => uncut token (areTypes token member)

/-- The tokens of a state variable are read back, whatever it is initialized with. -/
theorem tokensOf_front : tokensOf state.front = state.tokens := by
  rw [tokensOf, front, Nesting.strip_beforeAssignment
      (state.isPart_tokens rfl fun _ isType => isType.noAssignment),
    Nesting.tokens_joinWith fun token member =>
      (state.isTypeToken_of_mem_tokens token member).isToken]

/-- No item ends before the semicolon of a state variable. -/
theorem steady_front : Item.Steady state.front := by
  have row : Item.Steady (joinWith [' '] state.tokens) := by
    have isPart := state.isPart_tokens rfl fun _ isType => isType.noMark
    refine .of_noneOutside (Nesting.nested_joinWith fun token member =>
      (state.isTypeToken_of_mem_tokens token member).isToken) ?_
    exact fun part c begins nested => isPart.uncut part c begins nested.depth_eq
  refine row.append ?_
  cases initialized : state.initializer with
  | none => exact (Item.Clear.of_blank (List.forall_mem_nil _)).steady
  | some value =>
    have sign : Item.Clear [' ', '=', ' '] := ⟨by decide, by decide, by decide⟩
    obtain ⟨nested, noMark⟩ := state.isInitializer value initialized
    exact sign.steady.append (.of_noneOutside nested noMark)

/-- The text of a state variable is that of one item, whatever it begins with. -/
theorem isText : Item.IsText state.text := by
  have steady := state.steady_front
  refine .of_semicolon steady.nested ?_ ?_
  · have isPart := state.isPart_tokens rfl fun _ isType => isType.noMark
    rw [front, List.append_assoc, List.head?_append_of_ne_nil _ isPart.nonempty]
    exact isPart.starts
  · rintro part begins ⟨nested, last⟩
    obtain ⟨noSemicolon, noBrace⟩ := steady.goesOn part begins nested
    exact last.elim noSemicolon fun brace => noBrace brace.1

/-- A state variable has a token behind the first one. -/
theorem exists_second : ∃ second rest,
    state.others ++ (state.attributes.map String.toList ++ [state.name]) = second :: rest :=
  List.exists_cons_of_ne_nil (by simp)

/-- A state variable begins with the first word of its type. -/
theorem leadingWord_text : leadingWord state.text = leadingWord state.first := by
  obtain ⟨second, rest, behind⟩ := state.exists_second
  rw [text, front, tokens, behind, joinWith_cons_cons, List.append_assoc, List.append_assoc]
  exact leadingWord_append_cons rfl _ _

/-- The type of a state variable is no function type. -/
theorem typeLength_first (middle : List (List Char)) : typeLength state.first middle = 0 := by
  rw [typeLength, if_neg]
  intro begins
  obtain ⟨rest, whole⟩ := List.isPrefixOf_iff_prefix.1 begins
  refine state.opensNone "function" (by decide) ?_
  rw [← whole]
  exact (leadingWord_append_cons rfl "function".toList rest).symm

/-- Between the first token and the name, attributes are told from the rest of the type. -/
theorem filter_middle :
    (state.others ++ state.attributes.map String.toList).filter (isOneOf VariableDecl.attributes) =
        state.attributes.map String.toList ∧
      (state.others ++ state.attributes.map String.toList).filter
        (!isOneOf VariableDecl.attributes ·) = state.others := by
  have isType : ∀ token ∈ state.others, isOneOf VariableDecl.attributes token = false :=
    fun token member => isOneOf_eq_false (state.notAttribute token member)
  have isAttribute : ∀ token ∈ state.attributes.map String.toList,
      isOneOf VariableDecl.attributes token = true := by
    intro token member
    obtain ⟨word, listed, rfl⟩ := List.mem_map.1 member
    simp [isOneOf_toList, state.areAttributes word listed]
  rw [List.filter_append, List.filter_append, List.filter_eq_self.2 isAttribute,
    List.filter_eq_nil_iff.2 (by simpa using isType), List.filter_eq_self.2 (by simpa using isType),
    List.filter_eq_nil_iff.2 (by simpa using isAttribute)]
  simp

/-- The first attribute for the visibility is found among the tokens. -/
theorem find?_visibility :
    (state.attributes.map String.toList).find? (isOneOf visibilities) =
      state.visibility?.map String.toList := by
  rw [List.find?_map, visibility?]
  congr 2
  funext word
  exact isOneOf_toList visibilities word

theorem any_constant :
    (state.attributes.map String.toList).any (isOneOf ["constant"]) =
      state.attributes.contains "constant" := by
  rw [List.any_map, List.contains_eq_any_beq]
  congr 1
  funext word
  rw [Function.comp_apply, isOneOf_toList, Bool.eq_iff_iff, List.contains_iff_mem,
    List.mem_singleton, beq_iff_eq, eq_comm]

/-- State variables that are written are read back. -/
theorem ofItem?_of_shown
    {item : Item}
    (shown_eq : item.shown = state.text) :
    ofItem? item = some (state.decl item.start) := by
  obtain ⟨second, rest, behind⟩ := state.exists_second
  obtain ⟨words, types⟩ := state.filter_middle
  have read : tokensOf item.shown.dropLast = state.first :: second :: rest := by
    rw [shown_eq, text, List.dropLast_concat, tokensOf_front, tokens, behind]
  have named : (second :: rest).getLastD [] = state.name := by
    rw [← behind, ← List.append_assoc]
    simp
  have middle : (second :: rest).dropLast =
      state.others ++ state.attributes.map String.toList := by
    rw [← behind, ← List.append_assoc, List.dropLast_concat]
  have visible := state.find?_visibility
  have constant := state.any_constant
  unfold visibilities at visible
  unfold ofItem?
  rw [read]
  simp only [named, middle, state.identifier, state.typeLength_first, List.drop_zero, words, types,
    visible, constant]
  simp [decl, Function.comp_def, Item.line]

/-- A state variable that is written is read as a member. -/
theorem read_of_shown
    {item : Item}
    (shown_eq : item.shown = state.text) :
    Member.read item = .ok (.member (.stateVariable (state.decl item.start))) := by
  have opensNone {words : List String} (listed : words ⊆ otherWords) :
      isOneOf words (leadingWord state.first) = false :=
    isOneOf_eq_false fun word member => state.opensNone word (listed member)
  have notEvent : leadingWord state.first ≠ "event".toList :=
    (state.opensNone "event" (by decide)).symm
  have notFunction : leadingWord state.first ≠ "function".toList :=
    (state.opensNone "function" (by decide)).symm
  have notKeyword : isOneOf FunctionDecl.keywords (leadingWord state.first) = false :=
    opensNone (by decide)
  have documented : isOneOf Member.undocumented (leadingWord state.first) = false :=
    opensNone (by decide)
  have ends : state.text.getLast? = some ';' := List.getLast?_concat
  unfold Member.read Member.readVariable
  dsimp only
  rw [shown_eq, state.leadingWord_text, if_neg notEvent, decide_eq_false notFunction,
    Bool.false_and, if_neg Bool.false_ne_true, notKeyword, if_neg Bool.false_ne_true, documented,
    ends, if_neg (by decide), state.ofItem?_of_shown shown_eq]
  rfl

end Spelling
end VariableDecl

/-- A variable is public exactly if this is the first visibility among its attributes. -/
theorem VariableDecl.Spelling.isPublic_decl
    (state : Spelling)
    (position : Position) :
    (state.decl position).isPublic = true ↔ state.visibility? = some "public" := by
  unfold isPublic decl
  cases state.visibility? <;> simp

/-- **State variables are read back.**  A contract with a state variable in its body, as it is
written, is read as this contract with this variable and no other member.  The variable has the
name and the type that are written and the visibility of the first attribute for it, which is
`internal` where there is none; it is constant if one of its attributes says so, and public if
this is its visibility.  The value with which it is initialized does not count. -/
theorem parse_written_variable
    {source front lead trail : List Char} {head : ContractDecl.Head}
    (state : VariableDecl.Spelling)
    (isHead : ContractDecl.IsHead front head)
    (leadBlank : ∀ c ∈ lead, isSpace c = true)
    (trailBlank : ∀ c ∈ trail, isSpace c = true)
    (source_eq : source = front ++ '{' :: (lead ++ (state.text ++ trail) ++ ['}']))
    (onlyCode : Lexeme.OnlyCode source) :
    parse (String.ofList source) =
      .ok ⟨[.contract {
        name := String.ofList head.name
        kind := head.kind
        parents := head.parents
        body := [.stateVariable (state.decl (Position.origin.advanceBy (front ++ '{' :: lead)))]
        isAbstract := head.isAbstract
        start := 0
        stop := source.length
        line := 1 }]⟩ ∧
      ((state.decl (Position.origin.advanceBy (front ++ '{' :: lead))).isPublic = true ↔
        state.visibility? = some "public") := by
  have single := splitItems_single leadBlank state.isText trailBlank
    (Position.origin.advanceBy (front ++ ['{']))
  have place : (Position.origin.advanceBy (front ++ ['{'])).advanceBy lead =
      Position.origin.advanceBy (front ++ '{' :: lead) := by
    rw [← Position.advanceBy_append]
    simp
  rw [place] at single
  have read := @state.read_of_shown ⟨Position.origin.advanceBy (front ++ '{' :: lead), _⟩
    (Glyph.map_shown_kept state.text)
  have members := mapM_eq_ok_iff.2 (.cons read .nil)
  refine ⟨?_, state.isPublic_decl _⟩
  rw [parse_of_isHead isHead single source_eq onlyCode, members]
  rfl

/-- A mapping with an initializer that compares, assigns and calls inside of brackets. -/
def VariableDecl.Spelling.limits : Spelling where
  first := "mapping(address => uint)".toList
  others := ["[2]".toList]
  attributes := ["constant", "private", "public"]
  name := "limits".toList
  initializer := some "a == b ? f(x = 1; \x7b\x7d) : c => d".toList
  areTypes := by decide
  opensNone := by decide
  notAttribute := by decide
  areAttributes := by decide
  identifier := by decide
  isInitializer := by
    rintro _ ⟨⟩
    decide

/-- A contract with this variable. -/
def limitsSource : String :=
  "contract C \x7b mapping(address => uint) [2] constant private public limits = a == b ? " ++
    "f(x = 1; \x7b\x7d) : c => d; \x7d"

/-- A state variable is read back, and its initializer does not count. -/
theorem limits_read_back :
    parse limitsSource =
      .ok ⟨[.contract {
        name := "C"
        kind := .contract
        parents := []
        body := [.stateVariable {
          name := "limits"
          typeName := "mapping(address => uint) [2]"
          visibility := "private"
          isConstant := true
          start := 13
          line := 1 }]
        isAbstract := false
        start := 0
        stop := 108
        line := 1 }]⟩ ∧
      ((VariableDecl.Spelling.limits.decl ⟨13, 1⟩).isPublic = true ↔
        VariableDecl.Spelling.limits.visibility? = some "public") := by
  have isHead : ContractDecl.IsHead "contract C ".toList ⟨['C'], .contract, [], false, 12⟩ :=
    ⟨by decide, Item.Clear.steady ⟨by decide, by decide, by decide⟩, rfl⟩
  have onlyCode : Lexeme.OnlyCode limitsSource.toList :=
    .of_notMem (by decide) (by decide) (by decide)
  have read := @parse_written_variable _ _ [' '] [' '] _ .limits isHead isGap_space.blank
    isGap_space.blank (by decide) onlyCode
  rw [String.ofList_toList] at read
  exact read

end ContractDoc
