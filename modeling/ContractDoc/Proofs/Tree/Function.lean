import ContractDoc.Proofs.Tree.Contract

/-!
# Functions as they are written

A function is written with the keyword, its name, its parameters, a header, and a semicolon
or a block.  A contract with one function in its body is read back: it has this function and
no other member, whatever stands between the parentheses and in the block.
-/

namespace ContractDoc

open Text

/-- A word is read up to white space or a parenthesis. -/
theorem Text.leadingWord_append
    {word spaces rest : List Char}
    (inWord : ∀ c ∈ word, isWordChar c = true)
    (blank : ∀ c ∈ spaces, isSpace c = true)
    (stops : spaces = [] → rest.head? = some '(') :
    leadingWord (word ++ (spaces ++ rest)) = word ∧
      afterWord (word ++ (spaces ++ rest)) = spaces ++ rest := by
  refine span_append inWord fun c head => ?_
  cases spaces with
  | nil =>
    rw [List.nil_append, stops rfl] at head
    obtain rfl := Option.some.inj head
    rfl
  | cons d spaces =>
    obtain rfl := Option.some.inj head
    exact Modifier.isWordChar_eq_false_of_isSpace (blank d List.mem_cons_self)

namespace FunctionDecl

open Modifier

/-- The word that opens a function. -/
def functionWord : List Char := ['f', 'u', 'n', 'c', 't', 'i', 'o', 'n']

theorem inWord_functionWord : ∀ c ∈ functionWord, isWordChar c = true :=
  List.all_eq_true.1 (by decide)

/-- A function as it is written: the parts of its text behind the keyword, and what its
header gives.  Its name is a word that does not begin with a numeral. -/
structure Spelling where
  gap : List Char
  name : List Char
  spaces : List Char
  /-- The text between the parentheses. -/
  params : List Char
  header : List Char
  returns : List Parameter
  modifiers : List Modifier
  body : List Char
  isGap : IsGap gap
  starts : name.head?.any isIdentifierStart = true
  inName : ∀ c ∈ name, isWordChar c = true
  blank : ∀ c ∈ spaces, isSpace c = true
  nested : Bracket.Nested params
  isHeader : IsHeader header returns modifiers
  isEnding : Item.Ending body

namespace Spelling

/-- The text of a function up to its body. -/
def signature (function : Spelling) : List Char :=
  functionWord ++ (function.gap ++ (function.name ++ (function.spaces ++
    ('(' :: (function.params ++ [')']) ++ function.header))))

/-- The text of a function. -/
def text (function : Spelling) : List Char :=
  function.signature ++ function.body

/-- The function that is written, at a position. -/
def decl (function : Spelling) (position : Position) : FunctionDecl where
  name := String.ofList function.name
  params := Parameter.readList function.params
  modifiers := function.modifiers
  returns := function.returns
  isConstructor := false
  isAbstract := function.body == [';']
  start := position.offset
  line := position.line

variable (function : Spelling)

theorem isName : IsName function.name := by
  refine ⟨?_, fun c member => Bool.or_eq_true_iff.2 (.inl (function.inName c member))⟩
  intro none
  have starts := function.starts
  rw [none] at starts
  cases starts

/-- The text of a function is that of one item. -/
theorem isText : Item.IsText function.text := by
  have word : Item.Clear functionWord := .of_class (by decide) (by decide) inWord_functionWord
  have steady : Item.Steady function.signature :=
    .append word.steady (.append (Item.Clear.of_blank function.isGap.blank).steady
      (.append function.isName.isClear.steady (.append (Item.Clear.of_blank function.blank).steady
        (.append (.parentheses function.nested) function.isHeader.isClear.steady))))
  refine .of_steady steady function.isEnding ?_ ?_
  · rintro c ⟨⟩
    decide
  · rintro ⟨rest, same⟩
    cases (List.cons.inj same).1

/-- The text of a function from the parenthesis of its parameters on. -/
def fromParams : List Char :=
  '(' :: (function.params ++ ')' :: (function.header ++ function.body))

/-- The parts of a function that is written, in their order. -/
theorem text_eq :
    function.text = functionWord ++
      (function.gap ++ (function.name ++ (function.spaces ++ function.fromParams))) := by
  simp [text, signature, fromParams]

/-- The keyword of a function that is written, and what follows it. -/
theorem leadingWord_text :
    leadingWord function.text = functionWord ∧
      skipSpace (afterWord function.text) =
        function.name ++ (function.spaces ++ function.fromParams) := by
  obtain ⟨word, behind⟩ := leadingWord_append inWord_functionWord function.isGap.blank
    fun none => absurd none function.isGap.nonempty
  rw [text_eq, word, behind, skipSpace_append_of_blank function.isGap.blank,
    function.isName.skipSpace_append]
  exact ⟨rfl, rfl⟩

/-- A function with a name is no variable of a function type. -/
theorem hasFunctionType_text : VariableDecl.hasFunctionType function.text = false := by
  have begins (rest : List Char) : "function".toList.isPrefixOf (functionWord ++ rest) = true :=
    List.isPrefixOf_iff_prefix.2 (List.prefix_append functionWord rest)
  have behind (rest : List Char) : (functionWord ++ rest).drop "function".length = rest := rfl
  have spaced (rest : List Char) : startsWithSpace (function.gap ++ rest) = true := by
    obtain ⟨c, blanks, gap_eq⟩ := List.exists_cons_of_ne_nil function.isGap.nonempty
    have space := function.isGap.blank c (by rw [gap_eq]; exact List.mem_cons_self)
    rw [gap_eq]
    exact space
  have named (rest : List Char) : (function.name ++ rest).head?.any isIdentifierStart = true := by
    rw [List.head?_append_of_ne_nil _ function.isName.nonempty]
    exact function.starts
  unfold VariableDecl.hasFunctionType
  rw [text_eq, begins, behind]
  dsimp only
  rw [spaced, skipSpace_append_of_blank function.isGap.blank, function.isName.skipSpace_append,
    named]
  rfl

/-- Functions that are written are read back. -/
theorem ofItem_of_shown
    {item : Item}
    (shown_eq : item.shown = function.text) :
    FunctionDecl.ofItem item = .ok (function.decl item.start) := by
  obtain ⟨word, behind⟩ := function.leadingWord_text
  obtain ⟨name, behindName⟩ := @leadingWord_append _ _ function.fromParams function.inName
    function.blank fun _ => rfl
  have signature : skipSpace (afterWord (skipSpace (afterWord item.shown))) =
      function.fromParams := by
    rw [shown_eq, behind, behindName, skipSpace_append_of_blank function.blank]
    rfl
  have enclosed := Nesting.enclosed?_append
    (Bracket.closed_of_nested function.nested.foldlM_track) (function.header ++ function.body)
  have header : headerOf (')' :: (function.header ++ function.body)) = function.header := by
    obtain ⟨mark, rest, body_eq, mark_eq⟩ := function.isEnding.exists_cons
    rw [body_eq]
    exact headerOf_append function.isHeader.isClear.noBlock
      function.isHeader.isClear.noSemicolon mark_eq rest
  obtain ⟨other, split, modifiers⟩ := function.isHeader.exists_splitReturns?
  have ends : (function.text.getLast? == some ';') = (function.body == [';']) :=
    function.isEnding.getLast?_append function.signature
  have given : nameFor functionWord function.name = function.name := by
    rw [nameFor, if_pos (by decide), if_neg (mt List.isEmpty_iff.1 function.isName.nonempty)]
  unfold FunctionDecl.ofItem
  simp only [signature, fromParams, enclosed, header, split]
  rw [shown_eq, word, behind, name, given, modifiers, ends]
  rfl

/-- A function that is written is read as a member. -/
theorem read_of_shown
    {item : Item}
    (shown_eq : item.shown = function.text) :
    Member.read item = .ok (.member (.function (function.decl item.start))) := by
  obtain ⟨word, -⟩ := function.leadingWord_text
  unfold Member.read
  simp only [shown_eq, word, function.hasFunctionType_text]
  rw [if_neg (by decide), if_neg (by decide), if_pos (by decide), function.ofItem_of_shown shown_eq]
  rfl

end Spelling
end FunctionDecl

/-- **Functions are read back.**  A contract with a function in its body, as it is written,
is read as this contract with this function and no other member.  The function has the name,
the parameters and the returned values that are written, the modifiers before and behind the
returns clause with their arguments, and no body exactly if it is ended by a semicolon. -/
theorem parse_written_function
    {source front lead trail : List Char} {head : ContractDecl.Head}
    (function : FunctionDecl.Spelling)
    (isHead : ContractDecl.IsHead front head)
    (leadBlank : ∀ c ∈ lead, isSpace c = true)
    (trailBlank : ∀ c ∈ trail, isSpace c = true)
    (source_eq : source = front ++ '{' :: (lead ++ (function.text ++ trail) ++ ['}']))
    (onlyCode : Lexeme.OnlyCode source) :
    parse (String.ofList source) =
      .ok ⟨[.contract {
        name := String.ofList head.name
        kind := head.kind
        parents := head.parents
        body := [.function (function.decl (Position.origin.advanceBy (front ++ '{' :: lead)))]
        isAbstract := head.isAbstract
        start := 0
        stop := source.length
        line := 1 }]⟩ := by
  subst source_eq
  have nested : Bracket.Nested (lead ++ (function.text ++ trail)) :=
    (Item.Clear.of_blank leadBlank).nested.append
      (function.isText.ends.1.append (Item.Clear.of_blank trailBlank).nested)
  have member := splitItems_single leadBlank function.isText trailBlank
    (Position.origin.advanceBy (front ++ ['{']))
  have place : (Position.origin.advanceBy (front ++ ['{'])).advanceBy lead =
      Position.origin.advanceBy (front ++ '{' :: lead) := by
    rw [← Position.advanceBy_append]
    simp
  rw [place] at member
  have read := @function.read_of_shown ⟨Position.origin.advanceBy (front ++ '{' :: lead), _⟩
    (Glyph.map_shown_kept function.text)
  have contract := ContractDecl.ofItem_of_open? (isHead.open?_eq member)
    (mapM_eq_ok_iff.2 (.cons read .nil))
  have declared := mapM_eq_ok_iff.2 (.cons (Declaration.read_of_contract contract) .nil)
  refine parse_eq_ok_iff.2 ⟨_, ?_, _, declared, ?_⟩
  · rw [String.toList_ofList]
    exact topLevelItems_single onlyCode (isHead.isText nested)
  · simp [Item.stop, Item.line, Position.origin, Member.Reading.toMember?]

namespace FunctionDecl

open Modifier

/-- Modifiers stand on both sides of a returns clause, one of them with an argument. -/
theorem isHeader_guarded :
    IsHeader " m(1) returns (uint b) view".toList (Parameter.readList "uint b".toList)
      [⟨"m", some "1"⟩, ⟨"view", none⟩] := by
  have isGap : IsGap [' '] := ⟨by decide, List.forall_mem_singleton.2 rfl⟩
  have isName {name : List Char} (nonempty : name ≠ []) (inName : name.all isNameChar = true) :
      IsName name :=
    ⟨nonempty, List.all_eq_true.1 inName⟩
  have notReturns {name : List Char} (short : name.length < returnsWord.length) :
      NotReturns name := by
    rintro ⟨before, rfl, -⟩
    rw [List.length_append] at short
    omega
  have isArguments : IsArguments ['1'] := by
    refine ⟨⟨by decide, by decide, by decide⟩, by decide, ?_⟩
    rintro before ⟨spaces, inner, same, -⟩
    have length := congrArg List.length same
    simp only [List.length_append, List.length_cons, List.length_nil, returnsWord] at length
    omega
  have front := @Spelled.call [' '] ['m'] [] ['1'] [] [] isGap (isName (by decide) (by decide))
    (notReturns (by decide)) nofun isArguments .nil
  have back := @Spelled.word [' '] ['v', 'i', 'e', 'w'] [] [] isGap
    (isName (by decide) (by decide)) (notReturns (by decide)) .nil
  exact @IsHeader.returning _ [' '] [' '] "uint b".toList _ [] _ _ front isGap isGap.blank
    ⟨by decide, by decide, by decide⟩ back nofun

/-- A function with a guard and without a body. -/
def Spelling.guarded : Spelling where
  gap := [' ']
  name := ['f']
  spaces := []
  params := "uint a".toList
  header := " m(1) returns (uint b) view".toList
  returns := Parameter.readList "uint b".toList
  modifiers := [⟨"m", some "1"⟩, ⟨"view", none⟩]
  body := [';']
  isGap := ⟨by decide, List.forall_mem_singleton.2 rfl⟩
  starts := by decide
  inName := List.forall_mem_singleton.2 rfl
  blank := nofun
  nested := by decide
  isHeader := isHeader_guarded
  isEnding := .semicolon

end FunctionDecl

/-- A contract with this function. -/
def guardedSource : String :=
  "contract C \x7b function f(uint a) m(1) returns (uint b) view; \x7d"

/-- A function is read back with its parameters, its returned value and its modifiers. -/
theorem guarded_function_read_back :
    parse guardedSource =
      .ok ⟨[.contract {
        name := "C"
        kind := .contract
        parents := []
        body := [.function {
          name := "f"
          params := [⟨"uint", some "a", none, false⟩]
          modifiers := [⟨"m", some "1"⟩, ⟨"view", none⟩]
          returns := [⟨"uint", some "b", none, false⟩]
          isConstructor := false
          isAbstract := true
          start := 13
          line := 1 }]
        isAbstract := false
        start := 0
        stop := 61
        line := 1 }]⟩ := by
  have isHead : ContractDecl.IsHead "contract C ".toList ⟨['C'], .contract, [], false, 12⟩ :=
    ⟨by decide, Item.Clear.steady ⟨by decide, by decide, by decide⟩, rfl⟩
  have onlyCode : Lexeme.OnlyCode guardedSource.toList := by
    have noSlash : '/' ∉ guardedSource.toList := by
      decide
    refine ⟨?_, fun held => noSlash (held.subset List.mem_cons_self),
      fun held => noSlash (held.subset List.mem_cons_self)⟩
    rintro quote (rfl | rfl)
    · decide
    · decide
  have space : ∀ c ∈ [' '], isSpace c = true := List.forall_mem_singleton.2 rfl
  have read := @parse_written_function _ _ [' '] [' '] _ FunctionDecl.Spelling.guarded isHead
    space space (by decide) onlyCode
  rw [String.ofList_toList] at read
  exact read

end ContractDoc
