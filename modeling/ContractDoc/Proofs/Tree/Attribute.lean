import ContractDoc.Proofs.Tree.Gap
import ContractDoc.Proofs.Tree.Variable

/-!
# Attributes of state variables

Attributes stand in a row behind the type of a state variable, each of them a word or a word with
a text in parentheses.  Their tokens are read back, together with those of the type before them
and the name behind them.  Among the last attributes an attribute is told apart from the type, and
any other token is taken into it.
-/

namespace ContractDoc

open Text

namespace VariableDecl

/-! ## Rows of attributes -/

/-- An attribute as it is written, and its token: a word, or a word with a text in parentheses,
before which white space may stand. -/
inductive Spells : List Char → List Char → Prop
  | word {word : List Char}
      (identifier : isIdentifier word = true) :
      Spells word word
  | call {word spaces inside : List Char}
      (identifier : isIdentifier word = true)
      (blank : ∀ c ∈ spaces, isSpace c = true)
      (nested : Bracket.Nested inside)
      (noParen : '(' ∉ inside) :
      Spells (word ++ (spaces ++ '(' :: (inside ++ [')']))) (word ++ '(' :: (inside ++ [')']))

/-- Attributes in a row, each with white space behind it. -/
inductive Row : List Char → List (List Char) → Prop
  | nil : Row [] []
  | cons {written token gap text : List Char} {tokens : List (List Char)}
      (spells : Spells written token)
      (isGap : IsGap gap)
      (rest : Row text tokens) :
      Row (written ++ (gap ++ text)) (token :: tokens)

namespace Spells

variable {written token : List Char}

/-- An attribute begins like an identifier. -/
theorem starts
    (spells : Spells written token)
    (rest : List Char) :
    (written ++ rest).head?.any isIdentifierStart = true := by
  have begins {word : List Char} (identifier : isIdentifier word = true) (rest : List Char) :
      (word ++ rest).head?.any isIdentifierStart = true := by
    cases word with
    | nil => cases identifier
    | cons c word => exact (Bool.and_eq_true_iff.1 identifier).1
  cases spells with
  | word identifier => exact begins identifier rest
  | call identifier _ _ _ =>
    rw [List.append_assoc]
    exact begins identifier _

/-- The parenthesis of an attribute is closed up to its word. -/
theorem closeUp_eq (spells : Spells written token) : Nesting.closeUp written = token := by
  cases spells with
  | word identifier => exact (isToken_of_isIdentifier identifier).tight.closeUp_eq
  | @call word spaces inside identifier blank _ noParen =>
    have tight : Nesting.Tight (inside ++ [')']) := .of_notMem (by simp [noParen])
    rw [Nesting.closeUp_call (isSpace_eq_false_of_mem_identifier identifier) blank,
      tight.closeUp_eq]

/-- An attribute is one token. -/
theorem isPart (spells : Spells written token) : Nesting.IsPart isSpace token := by
  cases spells with
  | word identifier =>
    have isToken := isToken_of_isIdentifier identifier
    exact isToken.isPart isToken.noSpace
  | @call word spaces inside identifier blank nested _ =>
    have isToken := isToken_of_isIdentifier identifier
    have enclosed : Bracket.NoneOutside isSpace ('(' :: (inside ++ [')'])) :=
      .enclose nested rfl rfl rfl
    refine .of_nested (isToken.nested.append (nested.enclose rfl rfl))
      (isToken.noSpace.append isToken.nested enclosed) (by simp) ?_ ?_
    · rw [List.head?_append_of_ne_nil _ isToken.nonempty]
      exact (isToken.isPart isToken.noSpace).starts
    · rw [← List.cons_append, ← List.append_assoc, List.getLast?_concat]
      rintro _ ⟨⟩
      rfl

/-- No equals sign stands in an attribute outside of its parentheses. -/
theorem noAssignment
    (spells : Spells written token) :
    Bracket.Nested written ∧ Bracket.NoneOutside (· == '=') written := by
  have ofIdentifier {word : List Char} (identifier : isIdentifier word = true) :
      Bracket.Nested word ∧ Bracket.NoneOutside (· == '=') word := by
    refine ⟨(isToken_of_isIdentifier identifier).nested,
      noneOutside_of_isIdentifier identifier fun c sign => ?_⟩
    rw [beq_iff_eq.1 sign]
    rfl
  cases spells with
  | word identifier => exact ofIdentifier identifier
  | call identifier blank nested _ =>
    obtain ⟨wordNested, wordNone⟩ := ofIdentifier identifier
    obtain ⟨spacesNested, spacesNone⟩ := noAssignment_of_blank blank
    exact ⟨wordNested.append (spacesNested.append (nested.enclose rfl rfl)),
      wordNone.append wordNested (spacesNone.append spacesNested (.enclose nested rfl rfl rfl))⟩

end Spells

namespace Row

variable {text name : List Char} {tokens : List (List Char)}

theorem append
    {back : List Char} {others : List (List Char)}
    (row : Row text tokens)
    (backRow : Row back others) :
    Row (text ++ back) (tokens ++ others) := by
  induction row with
  | nil => exact backRow
  | cons spells isGap _ ih =>
    rw [List.append_assoc, List.append_assoc]
    exact .cons spells isGap ih

/-- A row and a name behind it begin like an identifier. -/
theorem starts
    (row : Row text tokens)
    (identifier : isIdentifier name = true)
    (rest : List Char) :
    (text ++ (name ++ rest)).head?.any isIdentifierStart = true := by
  cases row with
  | nil => exact (Spells.word identifier).starts rest
  | cons spells _ _ =>
    rw [List.append_assoc]
    exact spells.starts _

/-- White space between a text and a row is closed up on neither side of it. -/
theorem closeUp_append_gap
    {gap : List Char}
    (row : Row text tokens)
    (identifier : isIdentifier name = true)
    (isGap : IsGap gap)
    (front : List Char) :
    Nesting.closeUp (front ++ (gap ++ (text ++ name))) =
      Nesting.closeUp front ++ (gap ++ Nesting.closeUp (text ++ name)) := by
  have starts := row.starts identifier []
  rw [List.append_nil] at starts
  obtain ⟨skipped, notParen⟩ := visible_of_identifierStart starts
  have apart : (skipSpace (text ++ name)).head? ≠ some '(' := by
    rwa [skipped]
  have gapTight : Nesting.Tight gap := .of_notMem fun member => by
    cases isGap.blank _ member
  have gapApart : (skipSpace (gap ++ (text ++ name))).head? ≠ some '(' := by
    rwa [Modifier.skipSpace_append_of_blank isGap.blank]
  rw [Nesting.closeUp_append gapApart, Nesting.closeUp_append apart, gapTight.closeUp_eq]

theorem noAssignment
    (row : Row text tokens) :
    Bracket.Nested text ∧ Bracket.NoneOutside (· == '=') text := by
  induction row with
  | nil => exact ⟨.nil, .of_forall (List.forall_mem_nil _)⟩
  | cons spells isGap _ ih =>
    obtain ⟨nested, none⟩ := spells.noAssignment
    obtain ⟨gapNested, gapNone⟩ := noAssignment_of_blank isGap.blank
    exact ⟨nested.append (gapNested.append ih.1),
      none.append nested (gapNone.append gapNested ih.2)⟩

/-- The tokens of a row and of a name behind it are read back. -/
theorem tokens_eq
    (row : Row text tokens)
    (identifier : isIdentifier name = true) :
    Nesting.tokens (Nesting.closeUp (text ++ name)) = tokens ++ [name] := by
  induction row with
  | nil =>
    have isToken := isToken_of_isIdentifier identifier
    rw [List.nil_append, isToken.tight.closeUp_eq]
    exact Nesting.tokens_of_isPart (isToken.isPart isToken.noSpace)
  | @cons written token gap text tokens spells isGap rest ih =>
    rw [List.append_assoc, List.append_assoc, rest.closeUp_append_gap identifier isGap,
      spells.closeUp_eq, Nesting.tokens_append spells.isPart.depth_eq isGap, ih,
      Nesting.tokens_of_isPart spells.isPart]
    rfl

end Row

/-! ## Declarations around a place -/

/-- What stands behind the name of a state variable: white space, or an equals sign that assigns
and a value. -/
inductive Ending : List Char → Prop
  | nothing {blank : List Char}
      (isBlank : ∀ c ∈ blank, isSpace c = true) :
      Ending blank
  | value {blank value : List Char}
      (isBlank : ∀ c ∈ blank, isSpace c = true)
      (assigns : value.head? ≠ some '=' ∧ value.head? ≠ some '>') :
      Ending (blank ++ '=' :: value)

/-- White space has no sign of an assignment. -/
theorem noSign_of_blank
    {blank : List Char}
    (isBlank : ∀ c ∈ blank, isSpace c = true) :
    ∀ front, front ++ ['='] <+: blank → (0 : Int) + Nesting.depth front ≠ 0 := by
  intro front begins
  cases isBlank '=' (begins.subset (by simp))

/-- A sign that is part of no comparison is that of the assignment. -/
theorem beforeAssignmentFrom_sign
    {previous : Option Char} {value : List Char}
    (before : previous.any Nesting.comparesWithNext = false)
    (behind : value.head? ≠ some '=' ∧ value.head? ≠ some '>') :
    Nesting.beforeAssignmentFrom previous 0 ('=' :: value) = 0 := by
  rw [Nesting.beforeAssignmentFrom, if_pos]
  simp [Nesting.isAssignment, before, behind]

/-- Before the ending of a declaration stands the part that it follows. -/
theorem Ending.strip_beforeAssignment
    {part ending : List Char}
    (isEnding : Ending ending)
    (isPart : Nesting.IsPart (· == '=') part)
    (last : ∀ c ∈ part.getLast?, Nesting.comparesWithNext c = false) :
    strip (Nesting.beforeAssignment (part ++ ending)) = part := by
  have none : ∀ front, front ++ ['='] <+: part → (0 : Int) + Nesting.depth front ≠ 0 := by
    intro front begins outside
    cases isPart.uncut front '=' begins (by omega)
  have index := @Nesting.beforeAssignmentFrom_append Option.none 0 part none ending
  have trimmed {trail : List Char} (trailBlank : ∀ c ∈ trail, isSpace c = true) :
      strip (part ++ trail) = part :=
    @strip_append [] part trail (List.forall_mem_nil _) trailBlank isPart.starts isPart.ends
  rw [isPart.depth_eq, Int.add_zero] at index
  rw [Nesting.beforeAssignment, Nesting.assignmentIndex, index]
  cases isEnding with
  | nothing isBlank =>
    have whole := @Nesting.beforeAssignmentFrom_append (part.getLast?.or Option.none) 0 ending
      (noSign_of_blank isBlank) []
    rw [List.append_nil] at whole
    rw [whole, Nesting.beforeAssignmentFrom, Nat.add_zero, ← List.length_append, List.take_length]
    exact trimmed isBlank
  | @value blank value isBlank assigns =>
    have found := @Nesting.beforeAssignmentFrom_append (part.getLast?.or Option.none) 0 blank
      (noSign_of_blank isBlank) ('=' :: value)
    have previous : (blank.getLast?.or (part.getLast?.or Option.none)).any
        Nesting.comparesWithNext = false := by
      cases lastBlank : blank.getLast? with
      | none =>
        cases lastPart : part.getLast? with
        | none => rfl
        | some c => exact last c lastPart
      | some c =>
        exact comparesWithNext_eq_false (by decide) (isBlank c (List.mem_of_getLast? lastBlank))
    have depth_eq := (noAssignment_of_blank isBlank).1.depth_eq
    rw [depth_eq, Int.add_zero, beforeAssignmentFrom_sign previous assigns] at found
    rw [found, Nat.add_zero, List.take_length_add_append, List.take_left]
    exact trimmed isBlank

/-- What stands before a place in a declaration: the type, and maybe attributes. -/
structure IsFront (front : List Char) : Prop where
  nonempty : front ≠ []
  starts : ∀ c ∈ front.head?, isSpace c = false
  nested : Bracket.Nested front
  noAssignment : Bracket.NoneOutside (· == '=') front

section Around

variable {front gap text name ending : List Char} {tokens : List (List Char)}

/-- A type has a token. -/
theorem IsFront.exists_tokens
    (isFront : IsFront front) :
    ∃ first middle, Nesting.tokens (Nesting.closeUp front) = first :: middle := by
  obtain ⟨c, rest, rfl⟩ := List.exists_cons_of_ne_nil isFront.nonempty
  have visible := isFront.starts c rfl
  refine List.exists_cons_of_ne_nil ?_
  rw [Nesting.closeUp, visible, Bool.false_and, if_neg Bool.false_ne_true]
  exact Nesting.tokens_ne_nil visible _

/-- The tokens of a declaration are those before the place, those of the row behind it, and the
name. -/
theorem tokensOf_around
    (isFront : IsFront front)
    (isGap : IsGap gap)
    (row : Row text tokens)
    (identifier : isIdentifier name = true)
    (isEnding : Ending ending) :
    tokensOf (front ++ (gap ++ (text ++ (name ++ ending)))) =
      Nesting.tokens (Nesting.closeUp front) ++ (tokens ++ [name]) := by
  have isToken := isToken_of_isIdentifier identifier
  obtain ⟨rowNested, rowNone⟩ := row.noAssignment
  obtain ⟨gapNested, gapNone⟩ := noAssignment_of_blank isGap.blank
  obtain ⟨nameNested, nameNone⟩ := (Spells.word identifier).noAssignment
  have last_eq : (front ++ (gap ++ (text ++ name))).getLast? = name.getLast? := by
    rw [← List.append_assoc, ← List.append_assoc,
      List.getLast?_append_of_ne_nil _ isToken.nonempty]
  have isPart : Nesting.IsPart (· == '=') (front ++ (gap ++ (text ++ name))) := by
    refine .of_nested
      (isFront.nested.append (gapNested.append (rowNested.append nameNested)))
      (isFront.noAssignment.append isFront.nested
        (gapNone.append gapNested (rowNone.append rowNested nameNone)))
      (by simp [isFront.nonempty]) ?_ ?_
    · rw [List.head?_append_of_ne_nil _ isFront.nonempty]
      exact isFront.starts
    · rw [last_eq]
      exact fun c last =>
        isSpace_eq_false_of_mem_identifier identifier c (List.mem_of_getLast? last)
  have last : ∀ c ∈ (front ++ (gap ++ (text ++ name))).getLast?,
      Nesting.comparesWithNext c = false := by
    rw [last_eq]
    exact fun c last => @comparesWithNext_eq_false (fun c => isWordChar c || c == '$') c
      (by decide) (inIdentifier identifier c (List.mem_of_getLast? last))
  have whole : front ++ (gap ++ (text ++ (name ++ ending))) =
      front ++ (gap ++ (text ++ name)) ++ ending := by
    simp
  have outside : Nesting.depth (Nesting.closeUp front) = 0 := by
    rw [Nesting.depth_closeUp, isFront.nested.depth_eq]
  rw [tokensOf, whole, isEnding.strip_beforeAssignment isPart last,
    row.closeUp_append_gap identifier isGap, Nesting.tokens_append outside isGap,
    row.tokens_eq identifier]

end Around

/-! ## Types and attributes -/

/-- The tokens of a type, when `first` and `middle` stand before the name. -/
def typeTokens (first : List Char) (middle : List (List Char)) : List (List Char) :=
  first :: middle.take (typeLength first middle) ++
    (middle.drop (typeLength first middle)).filter (!isOneOf attributes ·)

theorem typeTokens_ne_nil (first : List Char) (middle : List (List Char)) :
    typeTokens first middle ≠ [] :=
  List.cons_ne_nil _ _

/-- The attributes behind a type, when `first` and `middle` stand before the name. -/
def attributeTokens (first : List Char) (middle : List (List Char)) : List (List Char) :=
  (middle.drop (typeLength first middle)).filter (isOneOf attributes)

/-- The state variable at a position whose tokens are given. -/
def ofTokens (position : Position) (first : List Char) (middle : List (List Char))
    (name : List Char) : VariableDecl where
  name := String.ofList name
  typeName := spaced (typeTokens first middle)
  visibility := (((attributeTokens first middle).find? (isOneOf visibilities)).map
    String.ofList).getD "internal"
  isConstant := (attributeTokens first middle).any (isOneOf ["constant"])
  start := position.offset
  line := position.line

theorem ofItem?_of_tokensOf
    {item : Item} {first name : List Char} {middle : List (List Char)}
    (tokens_eq : tokensOf item.shown.dropLast = first :: (middle ++ [name]))
    (identifier : isIdentifier name = true) :
    ofItem? item = some (ofTokens item.start first middle name) := by
  obtain ⟨second, rest, behind⟩ : ∃ second rest, middle ++ [name] = second :: rest :=
    List.exists_cons_of_ne_nil (by simp)
  have named : (second :: rest).getLastD [] = name := by
    rw [← behind]
    simp
  have middle_eq : (second :: rest).dropLast = middle := by
    rw [← behind, List.dropLast_concat]
  unfold ofItem?
  rw [tokens_eq, behind]
  simp only [named, middle_eq, identifier]
  rfl

section Insertion

variable {first token : List Char} {front later : List (List Char)}

/-- Whether a token behind the parameters of a function type belongs to it. -/
def continuesType (token : List Char) : Bool :=
  isOneOf functionTypeAttributes token || "returns(".toList.isPrefixOf token

theorem typeLength_le (first : List Char) (front : List (List Char)) :
    typeLength first front ≤ front.length := by
  unfold typeLength
  split
  · exact (List.takeWhile_prefix _).length_le
  · exact Nat.zero_le _

/-- A type goes on behind a row only if the whole row belongs to it. -/
theorem typeLength_append (first : List Char) (front later : List (List Char)) :
    typeLength first (front ++ later) = typeLength first front ∨
      typeLength first front = front.length ∧
        typeLength first (front ++ later) =
          front.length + (later.takeWhile continuesType).length := by
  have lengths : ((front ++ later).takeWhile continuesType).length =
        (front.takeWhile continuesType).length ∨
      (front.takeWhile continuesType).length = front.length ∧
        ((front ++ later).takeWhile continuesType).length =
          front.length + (later.takeWhile continuesType).length := by
    rw [List.takeWhile_append]
    split
    · next all => exact .inr ⟨all, List.length_append⟩
    · exact .inl rfl
  unfold typeLength
  split
  · exact lengths
  · exact .inl rfl

/-- A type ends at the latest before a token that does not belong to it. -/
theorem typeLength_append_cons
    (ends : continuesType token = false)
    (front later : List (List Char)) :
    typeLength first (front ++ token :: later) = typeLength first front := by
  rcases typeLength_append first front (token :: later) with same | ⟨all, longer⟩
  · exact same
  · rw [longer, all, List.takeWhile_cons, ends]
    rfl

/-- A type that is no longer than a row ends in it. -/
theorem typeLength_append_of_le
    (short : typeLength first (front ++ later) ≤ front.length) :
    typeLength first (front ++ later) = typeLength first front := by
  rcases typeLength_append first front later with same | ⟨all, longer⟩
  · exact same
  · omega

/-- What is added behind a type is told apart. -/
theorem tokens_append_of_typeLength
    (same : typeLength first (front ++ later) = typeLength first front) :
    typeTokens first (front ++ later) =
        typeTokens first front ++ later.filter (!isOneOf attributes ·) ∧
      attributeTokens first (front ++ later) =
        attributeTokens first front ++ later.filter (isOneOf attributes) := by
  have short := typeLength_le first front
  unfold typeTokens attributeTokens
  rw [same, List.take_append_of_le_length short, List.drop_append_of_le_length short,
    List.filter_append, List.filter_append, List.append_assoc]
  exact ⟨rfl, rfl⟩

/-- A type that goes on behind a row has all of the row and a token behind it. -/
theorem exists_typeTokens_append
    (cut : front.length < typeLength first (front ++ later)) :
    ∃ token more, continuesType token = true ∧
      typeTokens first (front ++ later) = typeTokens first front ++ token :: more := by
  have short := typeLength_le first front
  rcases typeLength_append first front later with same | ⟨all, longer⟩
  · omega
  · have taken : later.take (later.takeWhile continuesType).length =
        later.takeWhile continuesType :=
      (List.prefix_iff_eq_take.1 (List.takeWhile_prefix _)).symm
    have nonempty : later.takeWhile continuesType ≠ [] := by
      rw [← List.length_pos_iff]
      omega
    obtain ⟨token, more, goesOn⟩ := List.exists_cons_of_ne_nil nonempty
    have continues : continuesType token = true :=
      List.mem_takeWhile_imp (goesOn ▸ List.mem_cons_self)
    unfold typeTokens
    rw [all, longer, List.take_length_add_append, taken, goesOn, List.take_length,
      List.drop_length]
    exact ⟨token, more ++ (later.drop (token :: more).length).filter (!isOneOf attributes ·),
      continues, by simp⟩

/-- An attribute among the last ones of a variable is no part of the type. -/
theorem tokens_insert_attribute
    (areAttributes : ∀ token ∈ later, isOneOf attributes token = true)
    (ends : continuesType token = false)
    (isAttribute : isOneOf attributes token = true) :
    typeTokens first (front ++ token :: later) = typeTokens first front ∧
      attributeTokens first (front ++ token :: later) =
        attributeTokens first front ++ token :: later := by
  obtain ⟨types, words⟩ := tokens_append_of_typeLength (typeLength_append_cons ends front later)
  have all : ∀ other ∈ token :: later, isOneOf attributes other = true :=
    List.forall_mem_cons.2 ⟨isAttribute, areAttributes⟩
  rw [types, words, List.filter_eq_self.2 all, List.filter_eq_nil_iff.2 (by simpa using all),
    List.append_nil]
  exact ⟨rfl, rfl⟩

/-- Any other token among the last attributes of a variable ends up in the type. -/
theorem tokens_insert_other
    (areAttributes : ∀ token ∈ later, isOneOf attributes token = true)
    (ends : continuesType token = false)
    (notAttribute : isOneOf attributes token = false) :
    typeTokens first (front ++ token :: later) = typeTokens first front ++ [token] ∧
      attributeTokens first (front ++ token :: later) = attributeTokens first front ++ later := by
  obtain ⟨types, words⟩ := tokens_append_of_typeLength (typeLength_append_cons ends front later)
  have noTypes : later.filter (!isOneOf attributes ·) = [] :=
    List.filter_eq_nil_iff.2 (by simpa using areAttributes)
  rw [types, words, List.filter_cons_of_pos (by simp [notAttribute]), noTypes,
    List.filter_cons_of_neg (by simp [notAttribute]), List.filter_eq_self.2 areAttributes]
  exact ⟨rfl, rfl⟩

/-- A word that is an attribute and says nothing about a variable. -/
structure IsIdle (word : List Char) : Prop where
  ends : continuesType word = false
  isAttribute : isOneOf attributes word = true
  notVisibility : isOneOf visibilities word = false
  notConstant : isOneOf ["constant"] word = false

theorem isIdle_override : IsIdle "override".toList :=
  ⟨by decide, by decide, by decide, by decide⟩

section Variable

variable {position : Position} {name idle : List Char}
variable (areAttributes : ∀ token ∈ later, isOneOf attributes token = true)
include areAttributes

/-- Among the last attributes of a variable, a token that is no attribute differs from an idle
word in the type only. -/
theorem ofTokens_insert_other
    (isIdle : IsIdle idle)
    (ends : continuesType token = false)
    (notAttribute : isOneOf attributes token = false) :
    ofTokens position first (front ++ token :: later) name =
      { ofTokens position first (front ++ idle :: later) name with
        typeName := (ofTokens position first (front ++ idle :: later) name).typeName ++
          String.ofList (' ' :: token) } := by
  obtain ⟨types, words⟩ := @tokens_insert_other first token front later areAttributes ends
    notAttribute
  obtain ⟨idleTypes, idleWords⟩ := @tokens_insert_attribute first idle front later areAttributes
    isIdle.ends isIdle.isAttribute
  have type_eq := spaced_append_cons (typeTokens_ne_nil first front) token []
  rw [joinWith_singleton] at type_eq
  unfold ofTokens
  rw [types, words, idleTypes, idleWords, type_eq]
  simp [List.find?_append, isIdle.notVisibility, isIdle.notConstant]

/-- Among the last attributes of a variable, an idle word changes nothing if the type ends before
it. -/
theorem ofTokens_insert_idle
    (isIdle : IsIdle idle)
    (same : typeLength first (front ++ later) = typeLength first front) :
    ofTokens position first (front ++ idle :: later) name =
      ofTokens position first (front ++ later) name := by
  obtain ⟨types, words⟩ := tokens_append_of_typeLength same
  obtain ⟨idleTypes, idleWords⟩ := @tokens_insert_attribute first idle front later areAttributes
    isIdle.ends isIdle.isAttribute
  have noTypes : later.filter (!isOneOf attributes ·) = [] :=
    List.filter_eq_nil_iff.2 (by simpa using areAttributes)
  rw [noTypes, List.append_nil] at types
  rw [List.filter_eq_self.2 areAttributes] at words
  unfold ofTokens
  rw [types, words, idleTypes, idleWords]
  simp [List.find?_append, isIdle.notVisibility, isIdle.notConstant]

end Variable

end Insertion

end VariableDecl
end ContractDoc
