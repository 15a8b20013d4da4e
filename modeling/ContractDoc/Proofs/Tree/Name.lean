import ContractDoc.Proofs.Tree.Function
import ContractDoc.Proofs.Tree.OneLine
import ContractDoc.Proofs.Tree.Variable

/-!
# Identifiers as names

Identifiers may hold dollar signs.  A state variable is named by any identifier, but the names of
contracts, of their parents, of events and of functions are words, and no dollar sign stands in a
word.  So an identifier without dollar signs is read back wherever a name stands, and one with a
dollar sign is read back only in a state variable: elsewhere the declaration is refused, or the
name is cut off before the sign.
-/

namespace ContractDoc

open Text

/-! ## Words in identifiers -/

section Identifier

variable {name : List Char} (identifier : isIdentifier name = true)
include identifier

theorem ne_nil_of_isIdentifier : name ≠ [] :=
  (isToken_of_isIdentifier identifier).nonempty

/-- The first character of an identifier may begin one. -/
theorem starts_of_isIdentifier : name.head?.any isIdentifierStart = true := by
  cases name with
  | nil => cases identifier
  | cons first rest => exact (Bool.and_eq_true_iff.1 identifier).1

/-- Identifiers begin with characters other than white space. -/
theorem visible_of_isIdentifier
    (rest : List Char) :
    ∀ c ∈ (name ++ rest).head?, isSpace c = false := by
  rw [List.head?_append_of_ne_nil _ (ne_nil_of_isIdentifier identifier)]
  exact fun c head =>
    isSpace_eq_false_of_mem_identifier identifier c (List.mem_of_head? head)

theorem clear_of_isIdentifier : Item.Clear name :=
  .of_class (by decide) (by decide) (inIdentifier identifier)

theorem isWordChar_of_ne_dollar
    {c : Char}
    (member : c ∈ name)
    (notDollar : c ≠ '$') :
    isWordChar c = true := by
  refine (Bool.or_eq_true_iff.1 (inIdentifier identifier c member)).resolve_right ?_
  rwa [beq_iff_eq]

/-- Identifiers without dollar signs are words. -/
theorem inWord_of_notMem_dollar
    (noDollar : '$' ∉ name) :
    ∀ c ∈ name, isWordChar c = true :=
  fun _ member => isWordChar_of_ne_dollar identifier member (ne_of_mem_of_not_mem member noDollar)

/-- The word at the start of an identifier ends at its first dollar sign. -/
theorem exists_eq_leadingWord_append
    (dollar : '$' ∈ name) :
    ∃ rest, name = leadingWord name ++ '$' :: rest := by
  obtain ⟨word, rest, rfl, absent⟩ := List.eq_append_cons_of_mem dollar
  have inWord : ∀ c ∈ word, isWordChar c = true := fun c member =>
    isWordChar_of_ne_dollar identifier (List.mem_append_left _ member)
      (ne_of_mem_of_not_mem member absent)
  refine ⟨rest, ?_⟩
  rw [leadingWord_append_cons rfl, leadingWord, List.takeWhile_eq_self_iff.2 inWord]

/-- An identifier without dollar signs is read as a word before a parenthesis. -/
theorem leadingWord_append_paren
    (noDollar : '$' ∉ name)
    (rest : List Char) :
    leadingWord (name ++ '(' :: rest) = name ∧ afterWord (name ++ '(' :: rest) = '(' :: rest := by
  refine span_append (inWord_of_notMem_dollar identifier noDollar) ?_
  rintro _ ⟨⟩
  rfl

/-- Behind the word at the start of an identifier follows its first dollar sign. -/
theorem exists_afterWord_append
    (dollar : '$' ∈ name)
    (rest : List Char) :
    ∃ more, afterWord (name ++ rest) = '$' :: more := by
  obtain ⟨behind, name_eq⟩ := exists_eq_leadingWord_append identifier dollar
  refine ⟨behind ++ rest, ?_⟩
  have inWord : ∀ c ∈ leadingWord name, isWordChar c = true := fun c => List.mem_takeWhile_imp
  have whole := @span_append isWordChar _ ('$' :: (behind ++ rest)) inWord
    (by rintro _ ⟨⟩; rfl)
  rw [← List.cons_append, ← List.append_assoc, ← name_eq] at whole
  exact whole.2

end Identifier

/-- Words are read to their ends. -/
theorem Text.leadingWord_of_inWord
    {word : List Char}
    (inWord : ∀ c ∈ word, isWordChar c = true) :
    leadingWord word = word :=
  List.takeWhile_eq_self_iff.2 inWord

/-! ## Events, functions and variables -/

/-- The text of an event without parameters. -/
def EventDecl.plainText (name : List Char) : List Char :=
  "event ".toList ++ (name ++ ("()".toList ++ [';']))

/-- The text of a public function without parameters and with an empty body. -/
def FunctionDecl.plainText (name : List Char) : List Char :=
  "function ".toList ++ (name ++ ("() public ".toList ++ ['{', '}']))

/-- The text of a public variable. -/
def VariableDecl.plainText (name : List Char) : List Char :=
  "uint public ".toList ++ (name ++ [';'])

section Length

variable (name : List Char)

theorem length_around (front back : List Char) :
    (front ++ (name ++ back)).length = front.length + back.length + name.length := by
  rw [List.length_append, List.length_append]
  omega

theorem EventDecl.length_plainText : (plainText name).length = 9 + name.length :=
  length_around name _ _

theorem FunctionDecl.length_plainText : (plainText name).length = 21 + name.length :=
  length_around name _ _

theorem VariableDecl.length_plainText : (plainText name).length = 13 + name.length :=
  length_around name _ _

end Length

namespace EventDecl

variable {name : List Char} {item : Item}

theorem flat_plainText
    (identifier : isIdentifier name = true) :
    Flat (plainText name) :=
  .append (by decide) (.append (.of_isIdentifier identifier) (by decide))

theorem isText_plainText
    (identifier : isIdentifier name = true) :
    Item.IsText (plainText name) := by
  have front : Item.Clear ("event ".toList ++ (name ++ "()".toList)) :=
    .append ⟨by decide, by decide, by decide⟩ (.append (clear_of_isIdentifier identifier)
      ⟨by decide, by decide, by decide⟩)
  have whole : plainText name = "event ".toList ++ (name ++ "()".toList) ++ [';'] :=
    (List.append_assoc _ _ _).symm.trans (List.append_assoc _ _ _).symm
  rw [whole]
  exact .of_clear front .semicolon rfl rfl (by decide)

/-- Behind the keyword of an event stand white space and its name. -/
theorem behindKeyword
    (identifier : isIdentifier name = true)
    (shown_eq : item.shown = plainText name) :
    startsWithSpace (afterWord item.shown) = true ∧
      skipSpace (afterWord item.shown) = name ++ ['(', ')', ';'] := by
  have behind : afterWord item.shown = [' '] ++ (name ++ ['(', ')', ';']) := by
    rw [shown_eq]
    rfl
  rw [behind, Modifier.skipSpace_append_of_blank isGap_space.blank,
    skipSpace_of_visible (visible_of_isIdentifier identifier _)]
  exact ⟨rfl, rfl⟩

/-- An event whose name is a word is read. -/
theorem ofItem_of_notMem_dollar
    (identifier : isIdentifier name = true)
    (noDollar : '$' ∉ name)
    (shown_eq : item.shown = plainText name) :
    ofItem item = .ok ⟨String.ofList name, [], false, item.start.offset, item.line⟩ := by
  obtain ⟨spaced, visible⟩ := behindKeyword identifier shown_eq
  obtain ⟨word, behind⟩ := leadingWord_append_paren identifier noDollar [')', ';']
  have named : name.isEmpty = false := by
    simpa using ne_nil_of_isIdentifier identifier
  unfold ofItem
  dsimp only
  rw [spaced, visible, word, behind, named]
  rfl

/-- An event whose name has a dollar sign is refused. -/
theorem ofItem_of_mem_dollar
    (identifier : isIdentifier name = true)
    (dollar : '$' ∈ name)
    (shown_eq : item.shown = plainText name) :
    ofItem item = item.fail .malformedEvent := by
  obtain ⟨-, visible⟩ := behindKeyword identifier shown_eq
  obtain ⟨more, behind⟩ := exists_afterWord_append identifier dollar ['(', ')', ';']
  have kept : skipSpace ('$' :: more) = '$' :: more := rfl
  unfold ofItem
  dsimp only
  rw [visible, behind, kept]
  split
  · next _ sign =>
    cases sign
  · rfl

/-- The text of an event is read as one. -/
theorem read_of_shown
    (shown_eq : item.shown = plainText name) :
    Member.read item = (ofItem item).map fun decl => .member (.event decl) := by
  have keyword : leadingWord (plainText name) = "event".toList := rfl
  unfold Member.read
  dsimp only
  rw [shown_eq, keyword, if_pos rfl]
  cases ofItem item <;> rfl

theorem read_of_notMem_dollar
    (identifier : isIdentifier name = true)
    (noDollar : '$' ∉ name)
    (shown_eq : item.shown = plainText name) :
    Member.read item = .ok (.member (.event
      ⟨String.ofList name, [], false, item.start.offset, item.line⟩)) := by
  rw [read_of_shown shown_eq, ofItem_of_notMem_dollar identifier noDollar shown_eq]
  rfl

theorem read_of_mem_dollar
    (identifier : isIdentifier name = true)
    (dollar : '$' ∈ name)
    (shown_eq : item.shown = plainText name) :
    Member.read item = item.fail .malformedEvent := by
  rw [read_of_shown shown_eq, ofItem_of_mem_dollar identifier dollar shown_eq]
  rfl

end EventDecl

namespace FunctionDecl

variable {name : List Char} {item : Item}

theorem flat_plainText
    (identifier : isIdentifier name = true) :
    Flat (plainText name) :=
  .append (by decide) (.append (.of_isIdentifier identifier) (by decide))

/-- The text of a function ends with its body. -/
theorem plainText_eq :
    plainText name = "function ".toList ++ (name ++ "() public ".toList) ++ '{' :: ([] ++ ['}']) :=
  (List.append_assoc _ _ _).symm.trans (List.append_assoc _ _ _).symm

theorem isText_plainText
    (identifier : isIdentifier name = true) :
    Item.IsText (plainText name) := by
  have front : Item.Clear ("function ".toList ++ (name ++ "() public ".toList)) :=
    .append ⟨by decide, by decide, by decide⟩ (.append (clear_of_isIdentifier identifier)
      ⟨by decide, by decide, by decide⟩)
  rw [plainText_eq]
  exact .of_clear front (.block .nil) rfl rfl (by decide)

/-- The word `public` is a header. -/
theorem isHeader_public : IsHeader " public ".toList [] [⟨"public", none⟩] := by
  have isName : Modifier.IsName "public".toList := ⟨by decide, List.all_eq_true.1 (by decide)⟩
  have notReturns : Modifier.NotReturns "public".toList := by
    rintro ⟨before, same, -⟩
    have short := congrArg List.length same
    rw [List.length_append] at short
    change 6 = before.length + 7 at short
    omega
  exact .plain (.word isGap_space isName notReturns .nil) isGap_space.blank

/-- Nothing stands between the name and the parentheses. -/
theorem isBlank_nil : ∀ c ∈ ([] : List Char), isSpace c = true := List.forall_mem_nil _

/-- A public function without parameters, as it is written. -/
def Spelling.plain
    (name : List Char)
    (identifier : isIdentifier name = true)
    (noDollar : '$' ∉ name) : Spelling where
  gap := [' ']
  name := name
  spaces := []
  params := []
  header := " public ".toList
  returns := []
  modifiers := [⟨"public", none⟩]
  body := ['{', '}']
  isGap := isGap_space
  starts := starts_of_isIdentifier identifier
  inName := inWord_of_notMem_dollar identifier noDollar
  blank := isBlank_nil
  nested := .nil
  isHeader := isHeader_public
  isEnding := .block .nil

/-- A function whose name is a word is read. -/
theorem read_of_notMem_dollar
    (identifier : isIdentifier name = true)
    (noDollar : '$' ∉ name)
    (shown_eq : item.shown = plainText name) :
    Member.read item = .ok (.member (.function {
      name := String.ofList name
      params := []
      modifiers := [⟨"public", none⟩]
      returns := []
      isConstructor := false
      isAbstract := false
      start := item.start.offset
      line := item.line })) := by
  have written : item.shown = (Spelling.plain name identifier noDollar).text := by
    rw [shown_eq, Spelling.text_eq]
    rfl
  rw [(Spelling.plain name identifier noDollar).read_of_shown written]
  rfl

/-- A function whose name has a dollar sign is refused. -/
theorem read_of_mem_dollar
    (identifier : isIdentifier name = true)
    (dollar : '$' ∈ name)
    (shown_eq : item.shown = plainText name) :
    Member.read item = item.fail .malformedFunction := by
  have keyword : leadingWord (plainText name) = "function".toList := rfl
  have behindKeyword : skipSpace (afterWord (plainText name)) =
      name ++ ("() public ".toList ++ ['{', '}']) := by
    have behind : afterWord (plainText name) =
        [' '] ++ (name ++ ("() public ".toList ++ ['{', '}'])) := rfl
    rw [behind, Modifier.skipSpace_append_of_blank isGap_space.blank,
      skipSpace_of_visible (visible_of_isIdentifier identifier _)]
  have ends : (plainText name).getLast? = some '}' := by
    rw [plainText_eq, List.getLast?_append_of_ne_nil _ (List.cons_ne_nil _ _)]
    rfl
  have noFunctionType : VariableDecl.hasFunctionType (plainText name) = false := by
    unfold VariableDecl.hasFunctionType
    dsimp only
    rw [ends]
    simp
  obtain ⟨more, behindWord⟩ :=
    exists_afterWord_append identifier dollar ("() public ".toList ++ ['{', '}'])
  have kept : skipSpace ('$' :: more) = '$' :: more := rfl
  have refused : ofItem item = item.fail .malformedFunction := by
    unfold ofItem
    dsimp only
    rw [shown_eq, behindKeyword, behindWord, kept]
    split
    · next _ sign =>
      cases sign
    · rfl
  unfold Member.read
  dsimp only
  rw [shown_eq, keyword, if_neg (by decide), noFunctionType, Bool.and_false,
    if_neg Bool.false_ne_true, if_pos (by decide), refused]
  rfl

end FunctionDecl

namespace VariableDecl

/-- A public variable, as it is written. -/
def Spelling.plain
    (name : List Char)
    (identifier : isIdentifier name = true) : Spelling where
  first := "uint".toList
  others := []
  attributes := ["public"]
  name := name
  initializer := none
  areTypes := by decide
  opensNone := by decide
  notAttribute := List.forall_mem_nil _
  areAttributes := by decide
  identifier := identifier
  isInitializer := nofun

theorem text_plain
    {name : List Char}
    (identifier : isIdentifier name = true) :
    (Spelling.plain name identifier).text = plainText name := by
  change joinWith [' '] ["uint".toList, "public".toList, name] ++ [] ++ [';'] = _
  rw [joinWith_cons_cons, joinWith_cons_cons, joinWith_singleton, List.append_nil]
  rfl

theorem flat_plainText
    {name : List Char}
    (identifier : isIdentifier name = true) :
    Flat (plainText name) :=
  .append (by decide) (.append (.of_isIdentifier identifier) (by decide))

theorem isText_plainText
    {name : List Char}
    (identifier : isIdentifier name = true) :
    Item.IsText (plainText name) := by
  rw [← text_plain identifier]
  exact (Spelling.plain name identifier).isText

/-- A variable is named by any identifier. -/
theorem read_of_isIdentifier
    {name : List Char} {item : Item}
    (identifier : isIdentifier name = true)
    (shown_eq : item.shown = plainText name) :
    Member.read item = .ok (.member (.stateVariable {
      name := String.ofList name
      typeName := "uint"
      visibility := "public"
      isConstant := false
      start := item.start.offset
      line := item.line })) :=
  (Spelling.plain name identifier).read_of_shown (shown_eq.trans (text_plain identifier).symm)

end VariableDecl

namespace ContractDecl

/-! ## Contracts and their parents -/

/-- A parent is named by the word at its start.  An identifier has no dots, so its word ends
where the name does. -/
theorem parentNames_of_isIdentifier
    {name : List Char}
    (identifier : isIdentifier name = true) :
    parentNames name = ([leadingWord name].filter (!·.isEmpty)).map String.ofList := by
  have uncut : Bracket.NoneOutside (· == ',') name := by
    refine noneOutside_of_isIdentifier identifier fun c comma => ?_
    rw [beq_iff_eq.1 comma]
    rfl
  have single := Nesting.Joined.part ((isToken_of_isIdentifier identifier).isPart uncut) .nil .nil
  rw [List.append_nil] at single
  have word : parentName name = leadingWord name := by
    have inside : ∀ c ∈ leadingWord name, (isWordChar c || c == '.') = true :=
      fun c member => Bool.or_eq_true_iff.2 (.inl (List.mem_takeWhile_imp member))
    have stops : ∀ c ∈ (afterWord name).head?, (isWordChar c || c == '.') = false := by
      intro c head
      have behind := List.head?_dropWhile_not isWordChar name
      rw [← afterWord, Option.mem_def.1 head] at behind
      have inName := inIdentifier identifier c
        ((List.dropWhile_sublist isWordChar).subset (List.mem_of_head? head))
      rw [Bool.or_eq_true, behind, beq_iff_eq] at inName
      rw [behind, inName.resolve_left Bool.false_ne_true]
      rfl
    have whole := (span_append inside stops).1
    rwa [leadingWord_append_afterWord] at whole
  rw [parentNames, Nesting.splitOn, Nesting.splitBy_of_joined (by decide) single,
    List.map_singleton, word]

theorem visible_append_dollar
    {word : List Char}
    (inWord : ∀ c ∈ word, isWordChar c = true)
    (rest : List Char) :
    ∀ c ∈ (word ++ '$' :: rest).head?, isSpace c = false := by
  cases word with
  | nil =>
    rintro _ ⟨⟩
    rfl
  | cons c word =>
    rintro _ ⟨⟩
    exact isSpace_eq_false_of_isWordChar (inWord c List.mem_cons_self)

/-- A word that runs up to a dollar sign is not the word before a list of parents. -/
theorem behindWord?_is_of_dollar
    {word rest : List Char}
    (inWord : ∀ c ∈ word, isWordChar c = true) :
    behindWord? "is" (word ++ '$' :: rest) = none := by
  unfold behindWord?
  split
  · next begins =>
    obtain ⟨later, same⟩ := List.isPrefixOf_iff_prefix.1 begins
    rcases word with - | ⟨first, - | ⟨second, word⟩⟩
    · cases (List.cons.inj same).1
    · cases (List.cons.inj (List.cons.inj same).2).1
    · have inRest : ∀ c ∈ word, isWordChar c = true := fun c member =>
        inWord c (List.mem_cons_of_mem first (List.mem_cons_of_mem second member))
      have goesOn := visible_append_dollar inRest rest
      change skipSpace1? (word ++ '$' :: rest) = none
      rw [skipSpace1?, if_neg]
      cases word with
      | nil => exact Bool.false_ne_true
      | cons third word => exact Bool.eq_false_iff.1 (goesOn third rfl)
  · rfl

/-- Neither a list of parents nor a brace begins with a word that runs up to a dollar sign. -/
theorem inheritance?_of_dollar
    {word rest : List Char}
    (inWord : ∀ c ∈ word, isWordChar c = true) :
    inheritance? (word ++ '$' :: rest) = none := by
  unfold inheritance?
  dsimp only
  rw [behindWord?_eq, skipSpace_of_visible (visible_append_dollar inWord rest),
    behindWord?_is_of_dollar inWord]
  cases word with
  | nil => rfl
  | cons c word =>
    have notBrace : c ≠ '{' := by
      rintro rfl
      cases inWord '{' List.mem_cons_self
    simp [notBrace]

theorem nameUpTo?_of_dollar
    {word rest : List Char}
    (inWord : ∀ c ∈ word, isWordChar c = true)
    {length : Nat}
    (short : length ≤ word.length) :
    nameUpTo? (word ++ '$' :: rest) length = none := by
  induction length with
  | zero => rfl
  | succ length ih =>
    have inDrop : ∀ c ∈ word.drop (length + 1), isWordChar c = true :=
      fun c member => inWord c (List.mem_of_mem_drop member)
    rw [nameUpTo?, List.drop_append_of_le_length short, inheritance?_of_dollar inDrop]
    exact ih (by omega)

/-- The head of a contract with a parent, up to its brace. -/
def heirFront (name : List Char) : List Char :=
  "contract C is ".toList ++ (name ++ [' '])

/-- The head of a contract with a parent is read, whatever identifier names the parent. -/
theorem isHead_heirFront
    {name : List Char}
    (identifier : isIdentifier name = true) :
    IsHead (heirFront name) ⟨['C'], .contract, parentNames name, false, 16 + name.length⟩ := by
  have isClear : Item.Clear (heirFront name) :=
    .append ⟨by decide, by decide, by decide⟩
      (.append (clear_of_isIdentifier identifier) (.of_blank isGap_space.blank))
  refine ⟨isClear.noBlock, isClear.steady, ?_⟩
  have visible := visible_of_isIdentifier identifier [' ', '{']
  have ends : ∀ c ∈ name.getLast?, isSpace c = false := fun c last =>
    isSpace_eq_false_of_mem_identifier identifier c (List.mem_of_getLast? last)
  have text_eq : heirFront name ++ ['{'] =
      "contract".toList ++ ([' '] ++ (['C'] ++ (" is ".toList ++ (name ++ [' ', '{'])))) :=
    calc
      _ = "contract C is ".toList ++ (name ++ [' '] ++ ['{']) := List.append_assoc _ _ _
      _ = "contract C is ".toList ++ (name ++ [' ', '{']) :=
        congrArg _ (List.append_assoc name [' '] ['{'])
      _ = _ := rfl
  have listed : behindWord? "is" (skipSpace (" is ".toList ++ (name ++ [' ', '{']))) =
      some (name ++ [' '] ++ '{' :: []) := by
    rw [List.append_assoc]
    exact behindWord?_append isGap_space visible
  have inherits := inheritance?_of_behindWord? listed
    (List.not_mem_append (clear_of_isIdentifier identifier).noBlock (by decide))
  rw [dropTrailingSpace_append isGap_space.blank ends] at inherits
  have named := nameUpTo?_append (List.cons_ne_nil 'C' []) inherits
  simp only [head?, Option.bind_eq_bind, Option.bind_eq_some_iff, Prod.exists]
  refine ⟨false, .contract, [' '] ++ (['C'] ++ (" is ".toList ++ (name ++ [' ', '{']))), ?_,
    ['C'] ++ (" is ".toList ++ (name ++ [' ', '{'])), ?_, ['C'], name, [], named, ?_⟩
  · rw [text_eq]
    rfl
  · rfl
  · have length : (heirFront name ++ ['{']).length = 16 + name.length := by
      rw [text_eq]
      simp only [List.length_append]
      change 8 + (1 + (1 + (4 + (name.length + 2)))) = 16 + name.length
      omega
    rw [length]
    rfl

/-- The head of a contract without parents, up to its brace. -/
def bareFront (name : List Char) : List Char :=
  ContractKind.contract.keyword.toList ++ ([' '] ++ (name ++ [' ']))

/-- A contract without parents whose name is a word, as it is written. -/
def Spelling.bare
    (name : List Char)
    (identifier : isIdentifier name = true)
    (noDollar : '$' ∉ name) : Spelling where
  abstractGap := none
  kind := .contract
  gap := [' ']
  name := name
  clause := [' ']
  parents := []
  abstractIsGap := isGap_of_none
  isGap := isGap_space
  nonempty := ne_nil_of_isIdentifier identifier
  inName := inWord_of_notMem_dollar identifier noDollar
  inherits := .nothing isGap_space.blank

/-- A contract whose name has a dollar sign has no head. -/
theorem head?_of_mem_dollar
    {name : List Char}
    (identifier : isIdentifier name = true)
    (dollar : '$' ∈ name)
    (rest : List Char) :
    head? (ContractKind.contract.keyword.toList ++ ([' '] ++ (name ++ rest))) = none := by
  obtain ⟨behind, name_eq⟩ := exists_eq_leadingWord_append identifier dollar
  have opened :
      opening? (ContractKind.contract.keyword.toList ++ ([' '] ++ (name ++ rest))) =
        some (false, .contract, [' '] ++ (name ++ rest)) := rfl
  have skipped := isGap_space.skipSpace1?_append (visible_of_isIdentifier identifier rest)
  have inWord : ∀ c ∈ leadingWord name, isWordChar c = true := fun c => List.mem_takeWhile_imp
  have whole : name ++ rest = leadingWord name ++ '$' :: (behind ++ rest) := by
    rw [← List.cons_append, ← List.append_assoc, ← name_eq]
  have word : leadingWord (name ++ rest) = leadingWord name := by
    rw [whole, leadingWord_append_cons rfl, leadingWord_of_inWord inWord]
  unfold head?
  rw [opened]
  dsimp only [Option.bind_eq_bind, Option.bind_some]
  rw [skipped, Option.bind_some, word, whole, nameUpTo?_of_dollar inWord (Nat.le_refl _)]
  rfl

end ContractDecl

/-! ## Sources -/

/-- The source of a contract with a parent and with members on its line. -/
def heirSource (name : List Char) (members : List (List Char)) : String :=
  String.ofList (ContractDecl.heirFront name ++ '{' :: (inLine members ++ ['}']))

/-- The source of a contract without parents and members. -/
def bareSource (name : List Char) : String :=
  String.ofList (ContractDecl.bareFront name ++ '{' :: ([] ++ ['}']))

section Sources

variable {name : List Char} (identifier : isIdentifier name = true)
include identifier

/-- A contract with a parent has the members of its items, if they are read. -/
theorem parse_heirSource
    {members : List (List Char)}
    (areItems : ∀ text ∈ members, Item.IsText text)
    (areFlat : ∀ text ∈ members, Flat text) :
    parse (heirSource name members) =
      ((itemsInLine (16 + name.length) members).mapM Member.read).map fun readings =>
        ⟨[.contract {
          name := "C"
          kind := .contract
          parents := ([leadingWord name].filter (!·.isEmpty)).map String.ofList
          body := readings.filterMap Member.Reading.toMember?
          isAbstract := false
          start := 0
          stop := 17 + name.length + (inLine members).length
          line := 1 }]⟩ := by
  have isHead := ContractDecl.isHead_heirFront identifier
  have frontFlat : Flat (ContractDecl.heirFront name ++ ['{']) :=
    .append (.append (by decide) (.append (.of_isIdentifier identifier) (by decide))) (by decide)
  have flat : Flat (ContractDecl.heirFront name ++ '{' :: (inLine members ++ ['}'])) := by
    rw [← List.singleton_append, ← List.append_assoc]
    exact frontFlat.append (.append (flat_inLine areFlat) (by decide))
  have length : 16 + name.length = (ContractDecl.heirFront name ++ ['{']).length :=
    isHead.length_eq
  have split := splitItems_inLine areItems areFlat (16 + name.length)
  have place : Position.origin.advanceBy (ContractDecl.heirFront name ++ ['{']) =
      ⟨16 + name.length, 1⟩ := by
    rw [frontFlat.advanceBy_eq, ← length, Position.origin, Nat.zero_add]
  rw [← place] at split
  have stop : (ContractDecl.heirFront name ++ '{' :: (inLine members ++ ['}'])).length =
      17 + name.length + (inLine members).length := by
    rw [← List.singleton_append, ← List.append_assoc, List.length_append, ← length,
      List.length_append, List.length_singleton]
    omega
  rw [heirSource, parse_of_isHead isHead split rfl flat.onlyCode, stop,
    ContractDecl.parentNames_of_isIdentifier identifier]

/-- A contract is refused if its first member is. -/
theorem parse_heirSource_of_refused
    {first : List Char} {members : List (List Char)} {fault : ParseFault}
    (areItems : ∀ text ∈ first :: members, Item.IsText text)
    (areFlat : ∀ text ∈ first :: members, Flat text)
    (refused : ∀ {item : Item}, item.shown = first → Member.read item = item.fail fault) :
    parse (heirSource name (first :: members)) = .error ⟨fault, 1⟩ := by
  rw [parse_heirSource identifier areItems areFlat, itemsInLine, List.mapM_cons,
    refused (Item.shown_map_kept _ first)]
  rfl

/-- Words are read back as the names of a parent, an event, a function and a variable. -/
theorem parse_heirSource_of_notMem_dollar
    (noDollar : '$' ∉ name) :
    parse (heirSource name [EventDecl.plainText name, FunctionDecl.plainText name,
        VariableDecl.plainText name]) =
      .ok ⟨[.contract {
        name := "C"
        kind := .contract
        parents := [String.ofList name]
        body := [
          .event {
            name := String.ofList name
            params := []
            isAnonymous := false
            start := 17 + name.length
            line := 1 },
          .function {
            name := String.ofList name
            params := []
            modifiers := [⟨"public", none⟩]
            returns := []
            isConstructor := false
            isAbstract := false
            start := 27 + 2 * name.length
            line := 1 },
          .stateVariable {
            name := String.ofList name
            typeName := "uint"
            visibility := "public"
            isConstant := false
            start := 49 + 3 * name.length
            line := 1 }]
        isAbstract := false
        start := 0
        stop := 64 + 4 * name.length
        line := 1 }]⟩ := by
  have event := EventDecl.isText_plainText identifier
  have function := FunctionDecl.isText_plainText identifier
  have state := VariableDecl.isText_plainText identifier
  have items : itemsInLine (16 + name.length) [EventDecl.plainText name,
      FunctionDecl.plainText name, VariableDecl.plainText name] = [
        ⟨⟨17 + name.length, 1⟩, (EventDecl.plainText name).map Glyph.kept⟩,
        ⟨⟨27 + 2 * name.length, 1⟩, (FunctionDecl.plainText name).map Glyph.kept⟩,
        ⟨⟨49 + 3 * name.length, 1⟩, (VariableDecl.plainText name).map Glyph.kept⟩] := by
    simp only [itemsInLine, EventDecl.length_plainText, FunctionDecl.length_plainText,
      List.cons.injEq, Item.mk.injEq, Position.mk.injEq, and_true]
    omega
  have eventRead := EventDecl.read_of_notMem_dollar identifier noDollar
    (Item.shown_map_kept ⟨17 + name.length, 1⟩ _)
  have functionRead := FunctionDecl.read_of_notMem_dollar identifier noDollar
    (Item.shown_map_kept ⟨27 + 2 * name.length, 1⟩ _)
  have stateRead := VariableDecl.read_of_isIdentifier identifier
    (Item.shown_map_kept ⟨49 + 3 * name.length, 1⟩ _)
  have stop : 17 + name.length + (inLine [EventDecl.plainText name, FunctionDecl.plainText name,
      VariableDecl.plainText name]).length = 64 + 4 * name.length := by
    have trail : (inLine []).length = 1 := rfl
    simp only [length_inLine_cons, EventDecl.length_plainText, FunctionDecl.length_plainText,
      VariableDecl.length_plainText, trail]
    omega
  have parents : ([leadingWord name].filter (!·.isEmpty)).map String.ofList =
      [String.ofList name] := by
    rw [leadingWord_of_inWord (inWord_of_notMem_dollar identifier noDollar)]
    simp [ne_nil_of_isIdentifier identifier]
  rw [parse_heirSource identifier (by simp [event, function, state])
      (by simp [EventDecl.flat_plainText identifier, FunctionDecl.flat_plainText identifier,
        VariableDecl.flat_plainText identifier]),
    items, mapM_eq_ok_iff.2 (.cons eventRead (.cons functionRead (.cons stateRead .nil))), stop,
    parents]
  rfl

/-- A variable is named by any identifier, and a parent by the word at its start. -/
theorem parse_heirSource_of_state :
    parse (heirSource name [VariableDecl.plainText name]) =
      .ok ⟨[.contract {
        name := "C"
        kind := .contract
        parents := ([leadingWord name].filter (!·.isEmpty)).map String.ofList
        body := [.stateVariable {
          name := String.ofList name
          typeName := "uint"
          visibility := "public"
          isConstant := false
          start := 17 + name.length
          line := 1 }]
        isAbstract := false
        start := 0
        stop := 32 + 2 * name.length
        line := 1 }]⟩ := by
  have items : itemsInLine (16 + name.length) [VariableDecl.plainText name] =
      [⟨⟨17 + name.length, 1⟩, (VariableDecl.plainText name).map Glyph.kept⟩] := by
    simp only [itemsInLine, List.cons.injEq, Item.mk.injEq, Position.mk.injEq, and_true]
    omega
  have read := VariableDecl.read_of_isIdentifier identifier
    (Item.shown_map_kept ⟨17 + name.length, 1⟩ _)
  have stop : 17 + name.length + (inLine [VariableDecl.plainText name]).length =
      32 + 2 * name.length := by
    have trail : (inLine []).length = 1 := rfl
    simp only [length_inLine_cons, VariableDecl.length_plainText, trail]
    omega
  rw [parse_heirSource identifier
      (List.forall_mem_singleton.2 (VariableDecl.isText_plainText identifier))
      (List.forall_mem_singleton.2 (VariableDecl.flat_plainText identifier)),
    items, mapM_eq_ok_iff.2 (.cons read .nil), stop]
  rfl

theorem flat_bareSource : Flat (ContractDecl.bareFront name ++ '{' :: ([] ++ ['}'])) :=
  .append (.append (by decide) (.append (by decide) (.append (.of_isIdentifier identifier)
    (by decide)))) (by decide)

/-- A contract whose name is a word is read. -/
theorem parse_bareSource_of_notMem_dollar
    (noDollar : '$' ∉ name) :
    parse (bareSource name) =
      .ok ⟨[.contract {
        name := String.ofList name
        kind := .contract
        parents := []
        body := []
        isAbstract := false
        start := 0
        stop := 12 + name.length
        line := 1 }]⟩ := by
  have stop : (ContractDecl.bareFront name ++ '{' :: ([] ++ ['}'])).length = 12 + name.length := by
    simp only [ContractDecl.bareFront, List.length_append]
    change 8 + (1 + (name.length + 1)) + 2 = 12 + name.length
    omega
  have written : ContractDecl.bareFront name ++ '{' :: ([] ++ ['}']) =
      (ContractDecl.Spelling.bare name identifier noDollar).text ++ '{' :: ([] ++ ['}']) := rfl
  rw [bareSource, parse_written_contract _ Cut.nil.divides written
    (flat_bareSource identifier).onlyCode, stop]
  rfl

theorem isText_bareSource :
    Item.IsText (ContractDecl.bareFront name ++ '{' :: ([] ++ ['}'])) := by
  have front : Item.Clear (ContractDecl.bareFront name) :=
    .append ⟨by decide, by decide, by decide⟩ (.append (.of_blank isGap_space.blank)
      (.append (clear_of_isIdentifier identifier) (.of_blank isGap_space.blank)))
  exact .of_clear front (.block .nil) rfl rfl (by decide)

/-- An item that begins as a contract is refused if its name has a dollar sign. -/
theorem read_contract_of_mem_dollar
    {item : Item} {rest : List Char}
    (dollar : '$' ∈ name)
    (shown_eq : item.shown =
      ContractKind.contract.keyword.toList ++ ([' '] ++ (name ++ rest))) :
    Declaration.read item = item.fail .malformedContract := by
  have notPragma (rest : List Char) : startsWithWord "pragma".toList
      (ContractKind.contract.keyword.toList ++ rest) = false := rfl
  have notImport (rest : List Char) : startsWithWord "import".toList
      (ContractKind.contract.keyword.toList ++ rest) = false := rfl
  have opens (rest : List Char) : (ContractDecl.opening?
      (ContractKind.contract.keyword.toList ++ ([' '] ++ rest))).isSome = true := rfl
  have refused : ContractDecl.ofItem item = item.fail .malformedContract := by
    have noHead := ContractDecl.head?_of_mem_dollar identifier dollar rest
    rw [← shown_eq] at noHead
    unfold ContractDecl.ofItem ContractDecl.open?
    rw [noHead]
    rfl
  unfold Declaration.read
  dsimp only
  rw [shown_eq, notPragma, notImport, opens, refused]
  rfl

/-- A contract whose name has a dollar sign is refused. -/
theorem parse_bareSource_of_mem_dollar
    (dollar : '$' ∈ name) :
    parse (bareSource name) = .error ⟨.malformedContract, 1⟩ := by
  have top := topLevelItems_single (flat_bareSource identifier).onlyCode
    (isText_bareSource identifier)
  have shown_eq : Item.shown ⟨.origin,
      (ContractDecl.bareFront name ++ '{' :: ([] ++ ['}'])).map Glyph.kept⟩ =
        ContractKind.contract.keyword.toList ++ ([' '] ++ (name ++ [' ', '{', '}'])) := by
    rw [Item.shown, Glyph.map_shown_kept]
    simp [ContractDecl.bareFront]
  rw [parse, bareSource, String.toList_ofList, top]
  change ([_].mapM Declaration.read >>= fun declarations => _) = _
  rw [List.mapM_cons, read_contract_of_mem_dollar identifier dollar shown_eq]
  rfl

end Sources

/-- **Dollar signs decide whether an identifier is a name.**  An identifier without dollar signs
is read back as the name of a parent, of an event, of a function, of a state variable and of a
contract.  An identifier with a dollar sign, which names a state variable as any other one does,
names none of the others: the event, the function and the contract are refused, and of the parent
only the word before the sign is left, if there is one. -/
theorem names_read_back_without_dollar
    (name : List Char)
    (identifier : isIdentifier name = true) :
    ('$' ∉ name →
      parse (heirSource name [EventDecl.plainText name, FunctionDecl.plainText name,
          VariableDecl.plainText name]) =
        .ok ⟨[.contract {
          name := "C"
          kind := .contract
          parents := [String.ofList name]
          body := [
            .event {
              name := String.ofList name
              params := []
              isAnonymous := false
              start := 17 + name.length
              line := 1 },
            .function {
              name := String.ofList name
              params := []
              modifiers := [⟨"public", none⟩]
              returns := []
              isConstructor := false
              isAbstract := false
              start := 27 + 2 * name.length
              line := 1 },
            .stateVariable {
              name := String.ofList name
              typeName := "uint"
              visibility := "public"
              isConstant := false
              start := 49 + 3 * name.length
              line := 1 }]
          isAbstract := false
          start := 0
          stop := 64 + 4 * name.length
          line := 1 }]⟩ ∧
      parse (bareSource name) =
        .ok ⟨[.contract {
          name := String.ofList name
          kind := .contract
          parents := []
          body := []
          isAbstract := false
          start := 0
          stop := 12 + name.length
          line := 1 }]⟩) ∧
    ('$' ∈ name →
      parse (heirSource name [EventDecl.plainText name, FunctionDecl.plainText name,
          VariableDecl.plainText name]) = .error ⟨.malformedEvent, 1⟩ ∧
      parse (heirSource name [FunctionDecl.plainText name, VariableDecl.plainText name]) =
        .error ⟨.malformedFunction, 1⟩ ∧
      parse (heirSource name [VariableDecl.plainText name]) =
        .ok ⟨[.contract {
          name := "C"
          kind := .contract
          parents := ([leadingWord name].filter (!·.isEmpty)).map String.ofList
          body := [.stateVariable {
            name := String.ofList name
            typeName := "uint"
            visibility := "public"
            isConstant := false
            start := 17 + name.length
            line := 1 }]
          isAbstract := false
          start := 0
          stop := 32 + 2 * name.length
          line := 1 }]⟩ ∧
      parse (bareSource name) = .error ⟨.malformedContract, 1⟩) := by
  have function := FunctionDecl.isText_plainText identifier
  have functionFlat := FunctionDecl.flat_plainText identifier
  have state := VariableDecl.isText_plainText identifier
  have stateFlat := VariableDecl.flat_plainText identifier
  refine ⟨fun noDollar => ⟨parse_heirSource_of_notMem_dollar identifier noDollar,
      parse_bareSource_of_notMem_dollar identifier noDollar⟩,
    fun dollar => ⟨?_, ?_, parse_heirSource_of_state identifier,
      parse_bareSource_of_mem_dollar identifier dollar⟩⟩
  · refine parse_heirSource_of_refused identifier ?_ ?_
      (EventDecl.read_of_mem_dollar identifier dollar)
    · simp [EventDecl.isText_plainText identifier, function, state]
    · simp [EventDecl.flat_plainText identifier, functionFlat, stateFlat]
  · refine parse_heirSource_of_refused identifier ?_ ?_
      (FunctionDecl.read_of_mem_dollar identifier dollar)
    · simp [function, state]
    · simp [functionFlat, stateFlat]

/-- A contract, its parent and its members of one name, which is a word. -/
def tokenSource : String :=
  "contract C is token \x7b event token(); function token() public \x7b\x7d " ++
    "uint public token; \x7d"

/-- The same contract with a dollar sign for the name. -/
def dollarSource : String :=
  "contract C is $ \x7b event $(); function $() public \x7b\x7d uint public $; \x7d"

/-- A word is read back as the name of a parent and of three members, and a dollar sign is
refused. -/
theorem token_read_back_and_dollar_refused :
    isIdentifier "token".toList = true ∧ isIdentifier ['$'] = true ∧
    parse tokenSource =
      .ok ⟨[.contract {
        name := "C"
        kind := .contract
        parents := ["token"]
        body := [
          .event ⟨"token", [], false, 22, 1⟩,
          .function {
            name := "token"
            params := []
            modifiers := [⟨"public", none⟩]
            returns := []
            isConstructor := false
            isAbstract := false
            start := 37
            line := 1 },
          .stateVariable ⟨"token", "uint", "public", false, 64, 1⟩]
        isAbstract := false
        start := 0
        stop := 84
        line := 1 }]⟩ ∧
    parse dollarSource = .error ⟨.malformedEvent, 1⟩ ∧
    parse "contract $ \x7b\x7d" = .error ⟨.malformedContract, 1⟩ := by
  have token : isIdentifier "token".toList = true := by decide
  have sign : isIdentifier ['$'] = true := by decide
  obtain ⟨read, -⟩ := (names_read_back_without_dollar _ token).1 (by decide)
  obtain ⟨eventRefused, -, -, contractRefused⟩ :=
    (names_read_back_without_dollar _ sign).2 (by decide)
  have tokenSource_eq : tokenSource = heirSource "token".toList
      [EventDecl.plainText "token".toList, FunctionDecl.plainText "token".toList,
        VariableDecl.plainText "token".toList] := by
    decide
  have dollarSource_eq : dollarSource = heirSource ['$']
      [EventDecl.plainText ['$'], FunctionDecl.plainText ['$'], VariableDecl.plainText ['$']] := by
    decide
  have bareSource_eq : "contract $ \x7b\x7d" = bareSource ['$'] := by
    decide
  rw [tokenSource_eq, dollarSource_eq, bareSource_eq]
  exact ⟨token, sign, read, eventRefused, contractRefused⟩

end ContractDoc
