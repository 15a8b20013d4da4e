import ContractDoc.Proofs.Source.Joined
import ContractDoc.Proofs.Source.Single
import ContractDoc.Proofs.Tree.Modifiers

/-!
# Headers as they are written

A header is written as a row of modifiers, each behind white space, with a returns clause
before, between or behind them or without one.  What is written so is read back: the search
for the clause passes over the modifiers before it, and without the clause the rest of the
header is one row again.
-/

namespace ContractDoc

open Text

namespace FunctionDecl

/-! ## Where returns clauses begin -/

/-- Behind its first part a text goes on with a returns clause, at least up to the
parenthesis. -/
def ReturnsBehind (text before : List Char) : Prop :=
  ∃ spaces inner, text = before ++ (returnsWord ++ (spaces ++ '(' :: inner)) ∧
    (∀ c ∈ spaces, isSpace c = true) ∧ ∀ c ∈ before.getLast?, isWordChar c = false

/-- No returns clause of two texts in a row begins in the first one. -/
def NoReturnsIn (front rest : List Char) : Prop :=
  ∀ before, ReturnsBehind (front ++ rest) before → front <+: before

namespace NoReturnsIn

variable {front back rest : List Char}

/-- It is enough that no clause begins at one of the characters. -/
theorem of_not
    (notIn : ∀ before ending spaces inner, front = before ++ ending → ending ≠ [] →
      ending ++ rest = returnsWord ++ (spaces ++ '(' :: inner) →
      (∀ c ∈ spaces, isSpace c = true) → ¬ ∀ c ∈ before.getLast?, isWordChar c = false) :
    NoReturnsIn front rest := by
  rintro before ⟨spaces, inner, whole, blank, outside⟩
  rcases List.append_eq_append_iff.1 whole with ⟨later, rfl, -⟩ | ⟨ending, rfl, behind⟩
  · exact List.prefix_append front later
  · by_cases none : ending = []
    · simp [none]
    · exact absurd outside (notIn before ending spaces inner rfl none behind.symm blank)

theorem append
    (noReturns : NoReturnsIn front (back ++ rest))
    (backNoReturns : NoReturnsIn back rest) :
    NoReturnsIn (front ++ back) rest := by
  intro before returns
  rw [List.append_assoc] at returns
  obtain ⟨later, rfl⟩ := noReturns before returns
  rw [List.prefix_append_right_inj]
  obtain ⟨spaces, inner, whole, blank, outside⟩ := returns
  rw [List.append_assoc] at whole
  exact backNoReturns later ⟨spaces, inner, List.append_cancel_left whole, blank,
    fun c last => outside c (List.mem_getLast?_append_of_mem_getLast? last)⟩

/-- No returns clause begins in white space. -/
theorem of_blank
    (blank : ∀ c ∈ front, isSpace c = true)
    (rest : List Char) :
    NoReturnsIn front rest := by
  refine of_not fun before ending spaces inner split nonempty same _ => ?_
  obtain ⟨c, ending, rfl⟩ := List.exists_cons_of_ne_nil nonempty
  obtain ⟨rfl, -⟩ := List.cons.inj same
  cases blank 'r' (split ▸ List.mem_append_right before List.mem_cons_self)

/-- No returns clause begins in arguments that hold none.  Such a clause would have its
parenthesis in the arguments. -/
theorem of_arguments
    {arguments : List Char}
    (none : ∀ before, ¬ ReturnsBehind arguments before)
    (rest : List Char) :
    NoReturnsIn ('(' :: (arguments ++ [')'])) rest := by
  refine of_not fun before ending spaces inner split nonempty same blank outside => ?_
  cases before with
  | nil =>
    rw [List.nil_append] at split
    rw [← split] at same
    cases (List.cons.inj same).1
  | cons c before =>
    obtain ⟨rfl, splitWithin⟩ := List.cons.inj split
    obtain ⟨within, last, rfl⟩ := (List.eq_nil_or_concat' ending).resolve_left nonempty
    rw [List.append_eq, ← List.append_assoc] at splitWithin
    obtain ⟨rfl, last_eq⟩ := List.append_inj' splitWithin rfl
    obtain rfl : ')' = last := (List.cons.inj last_eq).1
    have clause_eq (inner : List Char) : returnsWord ++ (spaces ++ '(' :: inner) =
        returnsWord ++ (spaces ++ ['(']) ++ inner := by
      simp
    have noClose : ')' ∉ returnsWord ++ (spaces ++ ['(']) := by
      intro member
      rcases List.mem_append.1 member with inWord | member
      · cases Modifier.isName_returnsWord.inName _ inWord
      · rcases List.mem_append.1 member with inSpaces | isOpen
        · cases blank _ inSpaces
        · simp at isOpen
    rw [clause_eq] at same
    rcases List.prefix_or_prefix_of_prefix ⟨rest, same⟩ (List.prefix_append _ inner) with
      long | short
    · exact noClose (long.subset (by simp))
    · rcases List.prefix_concat_iff.1 short with whole | ⟨more, rfl⟩
      · exact noClose (whole ▸ by simp)
      · refine none before ⟨spaces, more, by rw [clause_eq more], blank, ?_⟩
        exact fun c last => outside c (Modifier.mem_getLast?_cons '(' last)

end NoReturnsIn

/-- The search for a returns clause passes over a text in which none begins. -/
theorem findReturns_append
    {before row rest : List Char}
    (noReturns : NoReturnsIn (before.reverse ++ row) rest) :
    findReturns before (before.head?.any isWordChar) (row ++ rest) =
      findReturns (row.reverse ++ before) ((row.reverse ++ before).head?.any isWordChar) rest := by
  induction row generalizing before with
  | nil => rfl
  | cons c row ih =>
    have passed := @ih (c :: before) (by simpa using noReturns)
    rw [List.cons_append, findReturns, toList_returns, if_neg, List.reverse_cons,
      List.append_assoc]
    · exact passed
    · intro found
      simp only [Bool.and_eq_true, Bool.not_eq_true', beq_iff_eq, List.isPrefixOf_iff_prefix]
        at found
      obtain ⟨⟨outside, word⟩, opens⟩ := found
      obtain ⟨spaces, inner, whole, blank, -⟩ := exists_append_of_returns word opens
      have returns : ReturnsBehind (before.reverse ++ c :: row ++ rest) before.reverse := by
        refine ⟨spaces, inner, by rw [← whole]; simp, blank, ?_⟩
        intro d last
        rw [List.getLast?_reverse] at last
        rw [last] at outside
        exact outside
      have short := (noReturns _ returns).length_le
      simp only [List.length_append, List.length_cons] at short
      omega

/-- The search for a returns clause ends where one begins. -/
theorem findReturns_clause
    {before spaces inner : List Char}
    (blank : ∀ c ∈ spaces, isSpace c = true) :
    findReturns before false (returnsWord ++ (spaces ++ '(' :: inner)) =
      some (before.reverse, '(' :: inner) := by
  have fromParen : skipSpace ((returnsWord ++ (spaces ++ '(' :: inner)).drop "returns".length) =
      '(' :: inner := Modifier.skipSpace_append_of_blank blank _
  have begins : returnsWord.isPrefixOf (returnsWord ++ (spaces ++ '(' :: inner)) = true :=
    List.isPrefixOf_iff_prefix.2 (List.prefix_append _ _)
  have word_eq : returnsWord = 'r' :: returnsWord.tail := rfl
  rw [word_eq, List.cons_append, findReturns, ← List.cons_append, ← word_eq, fromParen,
    toList_returns, begins]
  rfl

/-- A header in which no returns clause begins returns nothing. -/
theorem splitReturns?_of_noReturns
    {header : List Char}
    (noReturns : NoReturnsIn header []) :
    splitReturns? header = some ([], header) := by
  have missing : findReturns [] false (header ++ []) = none := @findReturns_append [] _ _ noReturns
  rw [List.append_nil] at missing
  rw [splitReturns?, missing]

/-- The first returns clause of a header is found and cut out. -/
theorem splitReturns?_of_returnsAt
    {header before spaces inside behind : List Char}
    (returnsAt : ReturnsAt header before spaces inside behind)
    (noReturns : NoReturnsIn before (returnsClause spaces inside ++ behind)) :
    splitReturns? header = some (Parameter.readList inside, before ++ ' ' :: behind) := by
  obtain ⟨rfl, outside, blank, closed⟩ := returnsAt
  have atWord : (before.reverse ++ []).head?.any isWordChar = false := by
    rw [List.append_nil, List.head?_reverse, Option.any_eq_false]
    simpa using outside
  have passed : findReturns [] false (before ++ (returnsClause spaces inside ++ behind)) = _ :=
    @findReturns_append [] _ _ noReturns
  rw [atWord, returnsClause_append, findReturns_clause blank, List.append_nil,
    List.reverse_reverse] at passed
  rw [splitReturns?, returnsClause_append, passed]
  dsimp only
  rw [Nesting.enclosed?_append closed]
  rfl

end FunctionDecl

namespace Modifier

open FunctionDecl

/-! ## Rows of modifiers -/

/-- A name that the word of a returns clause does not end. -/
def NotReturns (name : List Char) : Prop :=
  ¬ ∃ before, name = before ++ returnsWord ∧ ∀ c ∈ before.getLast?, isWordChar c = false

/-- Arguments of a modifier: a nested text without blocks and semicolons, without white space
around it, and without a returns clause. -/
structure IsArguments (text : List Char) : Prop where
  isClear : Item.Clear text
  stripped : strip text = text
  noReturns : ∀ before, ¬ ReturnsBehind text before

theorem IsName.isClear
    {name : List Char}
    (isName : IsName name) :
    Item.Clear name :=
  .of_class (by decide) (by decide) isName.inName

/-- Modifiers as they are written in a row, each behind white space. -/
inductive Spelled : List Char → List Modifier → Prop
  | nil : Spelled [] []
  | word {gap name row : List Char} {modifiers : List Modifier}
      (isGap : IsGap gap)
      (isName : IsName name)
      (notReturns : NotReturns name)
      (rest : Spelled row modifiers) :
      Spelled (gap ++ (name ++ row)) (⟨String.ofList name, none⟩ :: modifiers)
  | call {gap name spaces arguments row : List Char} {modifiers : List Modifier}
      (isGap : IsGap gap)
      (isName : IsName name)
      (notReturns : NotReturns name)
      (blank : ∀ c ∈ spaces, isSpace c = true)
      (isArguments : IsArguments arguments)
      (rest : Spelled row modifiers) :
      Spelled (gap ++ (name ++ (spaces ++ ('(' :: (arguments ++ [')']) ++ row))))
        (⟨String.ofList name, some (String.ofList arguments)⟩ :: modifiers)

/-- A text that goes on with neither a word nor arguments. -/
structure Ended (text : List Char) : Prop where
  apart : Apart text
  plain : (skipSpace text).head? ≠ some '('

/-- White space may stand before what goes on with neither. -/
theorem Ended.of_blank
    {spaces rest : List Char}
    (blank : ∀ c ∈ spaces, isSpace c = true)
    (ended : Ended rest) :
    Ended (spaces ++ rest) := by
  refine ⟨apart_of_blank blank ended.apart, ?_⟩
  rw [skipSpace_append_of_blank blank]
  exact ended.plain

/-- White space and a word end what stands before them. -/
theorem ended_of_name
    {gap name : List Char}
    (isGap : IsGap gap)
    (isName : IsName name)
    (rest : List Char) :
    Ended (gap ++ (name ++ rest)) := by
  refine ⟨?_, ?_⟩
  · obtain ⟨c, blanks, rfl⟩ := List.exists_cons_of_ne_nil isGap.nonempty
    exact apart_cons (isNameChar_eq_false_of_isSpace (isGap.blank c List.mem_cons_self)) _
  · rw [skipSpace_append_of_blank isGap.blank]
    exact isName.plain rest

/-- No returns clause begins in a name that its word does not end. -/
theorem noReturnsIn_name
    {name rest : List Char}
    (isName : IsName name)
    (notReturns : NotReturns name)
    (apart : Apart rest) :
    NoReturnsIn name rest := by
  refine .of_not fun before ending spaces inner split _ same blank outside => ?_
  obtain ⟨rfl, -⟩ := Apart.append_inj apart (apart_of_blank blank (apart_cons rfl inner))
    (fun c member => isName.inName c (split ▸ List.mem_append_right before member))
    isName_returnsWord.inName same
  exact notReturns ⟨before, split, outside⟩

theorem readList_of_blank
    {spaces : List Char}
    (blank : ∀ c ∈ spaces, isSpace c = true)
    (rest : List Char) :
    readList (spaces ++ rest) = readList rest := by
  rw [← readList_skipSpace, skipSpace_append_of_blank blank, readList_skipSpace]

/-- Nothing is read from white space, which ends what stands before it. -/
theorem ended_of_blank
    {spaces : List Char}
    (blank : ∀ c ∈ spaces, isSpace c = true) :
    Ended spaces ∧ readList spaces = [] := by
  rw [← List.append_nil spaces]
  refine ⟨.of_blank blank ⟨nofun, nofun⟩, ?_⟩
  rw [readList_of_blank blank]
  exact @Stops.readList_eq_nil [] [] .done

namespace Spelled

variable {row rest : List Char} {modifiers : List Modifier}

/-- Modifiers end what stands before them. -/
theorem ended
    (spelled : Spelled row modifiers)
    (restEnded : Ended rest) :
    Ended (row ++ rest) := by
  cases spelled with
  | nil => exact restEnded
  | word isGap isName _ _ =>
    rw [List.append_assoc, List.append_assoc]
    exact ended_of_name isGap isName _
  | call isGap isName _ _ _ _ =>
    rw [List.append_assoc, List.append_assoc]
    exact ended_of_name isGap isName _

/-- Modifiers that are written are read back. -/
theorem readList_append
    (spelled : Spelled row modifiers)
    (restEnded : Ended rest) :
    readList (row ++ rest) = modifiers ++ readList rest := by
  induction spelled with
  | nil => rfl
  | @word gap name row modifiers isGap isName _ spelled ih =>
    obtain ⟨apart, plain⟩ := spelled.ended restEnded
    rw [List.append_assoc, List.append_assoc, readList_of_blank isGap.blank,
      readList_word isName apart plain, ih]
    rfl
  | @call gap name spaces arguments row modifiers isGap isName _ blank isArguments spelled ih =>
    have closed := Bracket.closed_of_nested isArguments.isClear.nested.foldlM_track
    have whole : gap ++ (name ++ (spaces ++ ('(' :: (arguments ++ [')']) ++ row))) ++ rest =
        gap ++ (name ++ (spaces ++ '(' :: (arguments ++ ')' :: (row ++ rest)))) := by
      simp
    rw [whole, readList_of_blank isGap.blank, readList_call isName blank closed, ih,
      isArguments.stripped]
    rfl

/-- No returns clause of a header begins in the modifiers at its start. -/
theorem noReturnsIn
    (spelled : Spelled row modifiers)
    (restEnded : Ended rest) :
    NoReturnsIn row rest := by
  induction spelled with
  | nil => exact fun _ _ => List.nil_prefix
  | @word gap name row modifiers isGap isName notReturns spelled ih =>
    have apart := (spelled.ended restEnded).apart
    exact .append (.of_blank isGap.blank _) (.append (noReturnsIn_name isName notReturns apart) ih)
  | @call gap name spaces arguments row modifiers isGap isName notReturns blank isArguments
      spelled ih =>
    have apart : Apart (spaces ++ ('(' :: (arguments ++ [')']) ++ row) ++ rest) := by
      rw [List.append_assoc]
      exact apart_of_blank blank (apart_cons rfl _)
    exact .append (.of_blank isGap.blank _) (.append (noReturnsIn_name isName notReturns apart)
      (.append (.of_blank blank _) (.append (.of_arguments isArguments.noReturns _) ih)))

/-- Modifiers have neither blocks nor semicolons. -/
theorem isClear
    (spelled : Spelled row modifiers) :
    Item.Clear row := by
  induction spelled with
  | nil => exact .of_blank nofun
  | word isGap isName _ _ ih =>
    exact .append (.of_blank isGap.blank) (.append isName.isClear ih)
  | call isGap isName _ blank isArguments _ ih =>
    exact .append (.of_blank isGap.blank) (.append isName.isClear
      (.append (.of_blank blank) (.append isArguments.isClear.parentheses ih)))

end Spelled
end Modifier

/-! ## Headers -/

namespace FunctionDecl

open Modifier

/-- The header of a function as it is written, with the returned values and the modifiers
that it gives.  The returns clause, if there is one, stands behind white space. -/
inductive IsHeader : List Char → List Parameter → List Modifier → Prop
  | plain {row blank : List Char} {modifiers : List Modifier}
      (spelled : Spelled row modifiers)
      (isBlank : ∀ c ∈ blank, isSpace c = true) :
      IsHeader (row ++ blank) [] modifiers
  | returning {front gap spaces inside back blank : List Char} {before behind : List Modifier}
      (spelled : Spelled front before)
      (isGap : IsGap gap)
      (spacesBlank : ∀ c ∈ spaces, isSpace c = true)
      (isClear : Item.Clear inside)
      (spelledBehind : Spelled back behind)
      (isBlank : ∀ c ∈ blank, isSpace c = true) :
      IsHeader (front ++ (gap ++ (returnsClause spaces inside ++ (back ++ blank))))
        (Parameter.readList inside) (before ++ behind)

namespace IsHeader

variable {header : List Char} {returns : List Parameter} {modifiers : List Modifier}

/-- Headers have neither blocks nor semicolons. -/
theorem isClear
    (isHeader : IsHeader header returns modifiers) :
    Item.Clear header := by
  cases isHeader with
  | plain spelled isBlank => exact .append spelled.isClear (.of_blank isBlank)
  | returning spelled isGap spacesBlank isClear spelledBehind isBlank =>
    have clause : Item.Clear (returnsClause _ _) :=
      .append isName_returnsWord.isClear (.append (.of_blank spacesBlank) isClear.parentheses)
    exact .append spelled.isClear (.append (.of_blank isGap.blank)
      (.append clause (.append spelledBehind.isClear (.of_blank isBlank))))

/-- The returns clause of a header that is written is found, and the modifiers around it are
read back. -/
theorem exists_splitReturns?
    (isHeader : IsHeader header returns modifiers) :
    ∃ other, splitReturns? header = some (returns, other) ∧
      Modifier.readList other = modifiers := by
  cases isHeader with
  | @plain row blank _ spelled isBlank =>
    obtain ⟨ended, nothing⟩ := ended_of_blank isBlank
    have noReturns : NoReturnsIn (row ++ blank) [] := by
      refine .append ?_ (.of_blank isBlank [])
      rw [List.append_nil]
      exact spelled.noReturnsIn ended
    refine ⟨row ++ blank, splitReturns?_of_noReturns noReturns, ?_⟩
    rw [spelled.readList_append ended, nothing, List.append_nil]
  | @returning front gap spaces inside back blank before behind spelled isGap spacesBlank isClear
      spelledBehind isBlank =>
    obtain ⟨ended, nothing⟩ := ended_of_blank isBlank
    have frontEnded (rest : List Char) : Ended (gap ++ (returnsClause spaces inside ++ rest)) := by
      rw [returnsClause_append]
      exact ended_of_name isGap isName_returnsWord _
    have noReturns : NoReturnsIn (front ++ gap) (returnsClause spaces inside ++ (back ++ blank)) :=
      .append (spelled.noReturnsIn (frontEnded _)) (.of_blank isGap.blank _)
    have outside : ∀ c ∈ (front ++ gap).getLast?, isWordChar c = false := by
      intro c last
      rw [List.getLast?_append_of_ne_nil _ isGap.nonempty] at last
      exact isWordChar_eq_false_of_isSpace (isGap.blank c (List.mem_of_getLast? last))
    refine ⟨front ++ gap ++ ' ' :: (back ++ blank), ?_, ?_⟩
    · refine splitReturns?_of_returnsAt ⟨by simp, outside, spacesBlank, ?_⟩ noReturns
      exact Bracket.closed_of_nested isClear.nested.foldlM_track
    · have gapBlank : ∀ c ∈ gap ++ [' '], isSpace c = true :=
        List.forall_mem_append.2 ⟨isGap.blank, List.forall_mem_singleton.2 rfl⟩
      have whole : front ++ gap ++ ' ' :: (back ++ blank) =
          front ++ (gap ++ [' '] ++ (back ++ blank)) := by
        simp
      rw [whole, spelled.readList_append (.of_blank gapBlank (spelledBehind.ended ended)),
        readList_of_blank gapBlank, spelledBehind.readList_append ended, nothing, List.append_nil]

end IsHeader
end FunctionDecl
end ContractDoc
