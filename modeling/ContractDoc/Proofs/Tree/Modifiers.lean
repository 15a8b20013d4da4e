import ContractDoc.Model.Block
import ContractDoc.Proofs.Source.Parenthesis
import ContractDoc.Proofs.Tree.Read
import Mathlib.Data.List.Basic
import Mathlib.Data.List.DropRight

/-!
# The words of a header

Between its parameters and its body a function has a row of words, some of them with
arguments in parentheses.  What is read of a header are the words of the longest such
row with which it begins, except for its returns clause: reading stops at a character
that no row has, and at arguments that are not closed where the header is cut.
-/

namespace ContractDoc

open Text

/-! ## Characters of words -/

/-- No character is a word character and white space. -/
theorem isSpace_eq_false_of_isWordChar
    {c : Char}
    (inWord : isWordChar c = true) :
    isSpace c = false := by
  have apart : ∀ word ∈ wordRanges, ∀ space ∈ spaceRanges,
      word.last < space.first ∨ space.last < word.first := by
    decide +kernel
  by_contra space
  rw [Bool.not_eq_false] at space
  unfold isWordChar at inWord
  unfold isSpace at space
  split at space
  · next ascii =>
    rw [if_pos ascii] at inWord
    delta Char.isAlphanum Char.isAlpha Char.isUpper Char.isLower Char.isDigit at inWord
    simp only [Bool.or_eq_true, Bool.and_eq_true, decide_eq_true_eq, UInt32.le_iff_toNat_le,
      ge_iff_le, beq_iff_eq] at inWord
    change (((65 ≤ c.toNat ∧ c.toNat ≤ 90) ∨ (97 ≤ c.toNat ∧ c.toNat ≤ 122)) ∨
      (48 ≤ c.toNat ∧ c.toNat ≤ 57)) ∨ c = '_' at inWord
    simp only [Bool.or_eq_true, Bool.and_eq_true, decide_eq_true_eq] at space
    rcases inWord with ((upper | lower) | digit) | rfl
    · omega
    · omega
    · omega
    · exact absurd space (by decide)
  · next other =>
    rw [if_neg other] at inWord
    obtain ⟨word, wordListed, wordHolds⟩ := List.any_eq_true.1 inWord
    obtain ⟨blank, blankListed, blankHolds⟩ := List.any_eq_true.1 space
    simp only [CodeRange.contains, Bool.and_eq_true, decide_eq_true_eq] at wordHolds blankHolds
    rcases apart word wordListed blank blankListed with before | behind
    · omega
    · omega

/-- A text of one class of characters is the longest one at the start of a text that does not
go on with the class. -/
theorem Text.span_append
    {isIn : Char → Bool}
    {front rest : List Char}
    (inside : ∀ c ∈ front, isIn c = true)
    (stops : ∀ c ∈ rest.head?, isIn c = false) :
    (front ++ rest).takeWhile isIn = front ∧ (front ++ rest).dropWhile isIn = rest := by
  rw [List.takeWhile_append_of_pos inside, List.dropWhile_append_of_pos inside]
  cases rest with
  | nil => exact ⟨List.append_nil front, rfl⟩
  | cons c rest => simp [stops c rfl]

namespace Modifier

theorem isSpace_eq_false_of_isNameChar
    {c : Char}
    (inName : isNameChar c = true) :
    isSpace c = false := by
  rcases Bool.or_eq_true_iff.1 inName with inWord | dot
  · exact isSpace_eq_false_of_isWordChar inWord
  · rw [beq_iff_eq.1 dot]
    rfl

theorem isNameChar_eq_false_of_isSpace
    {c : Char}
    (space : isSpace c = true) :
    isNameChar c = false := by
  by_contra inName
  rw [isSpace_eq_false_of_isNameChar (Bool.not_eq_false _ ▸ inName)] at space
  cases space

theorem isWordChar_eq_false_of_isSpace
    {c : Char}
    (space : isSpace c = true) :
    isWordChar c = false :=
  (Bool.or_eq_false_iff.1 (isNameChar_eq_false_of_isSpace space)).1

/-- Names have no brackets. -/
theorem plain_of_isNameChar
    {c : Char}
    (inName : isNameChar c = true) :
    Bracket.ofOpening? c = none ∧ Bracket.ofClosing? c = none :=
  Bracket.plain_of_class (by decide) inName

/-- Names open and close no brackets. -/
theorem track_of_isNameChar
    {c : Char}
    (inName : isNameChar c = true)
    (unclosed : List Bracket) :
    Bracket.track unclosed c = some unclosed := by
  obtain ⟨opens, closes⟩ := plain_of_isNameChar inName
  rw [Bracket.track, opens, closes]

/-! ## Rows of words -/

/-- A word: a run of characters that may stand in the name of a modifier. -/
structure IsName (name : List Char) : Prop where
  nonempty : name ≠ []
  inName : ∀ c ∈ name, isNameChar c = true

/-- A text that does not go on with a word. -/
def Apart (text : List Char) : Prop :=
  ∀ c ∈ text.head?, isNameChar c = false

/-- A row of words, of which some have arguments between parentheses. -/
inductive Row : List Char → List (List Char) → Prop
  | nil : Row [] []
  | space {c : Char} {row : List Char} {words : List (List Char)}
      (blank : isSpace c = true)
      (rest : Row row words) :
      Row (c :: row) words
  | word {name row : List Char} {words : List (List Char)}
      (isName : IsName name)
      (apart : Apart row)
      (rest : Row row words) :
      Row (name ++ row) (name :: words)
  | call {name spaces inside row : List Char} {words : List (List Char)}
      (isName : IsName name)
      (blank : ∀ c ∈ spaces, isSpace c = true)
      (nested : inside.foldlM Bracket.track [] = some [])
      (rest : Row row words) :
      Row (name ++ (spaces ++ '(' :: (inside ++ ')' :: row))) (name :: words)

/-- How a header goes on behind a row: it ends, it has a character that no row has, or
it ends inside the arguments of a word. -/
inductive Stops (row : List Char) : List Char → Prop
  | done : Stops row []
  | unknown {c : Char} {rest : List Char}
      (visible : isSpace c = false)
      (notName : isNameChar c = false)
      (notOpen : c ≠ '(') :
      Stops row (c :: rest)
  | unclosed {name spaces inside : List Char}
      (ended : ∀ c ∈ row.getLast?, isNameChar c = false)
      (isName : IsName name)
      (blank : ∀ c ∈ spaces, isSpace c = true)
      (keeps : Nesting.KeepsOpen inside) :
      Stops row (name ++ (spaces ++ '(' :: inside))

/-- A text has only one way of going on with a word and then with something else. -/
theorem Apart.append_inj
    {name other rest otherRest : List Char}
    (apart : Apart rest)
    (otherApart : Apart otherRest)
    (inName : ∀ c ∈ name, isNameChar c = true)
    (otherInName : ∀ c ∈ other, isNameChar c = true)
    (same : name ++ rest = other ++ otherRest) :
    name = other ∧ rest = otherRest := by
  have first := congrArg (List.takeWhile isNameChar) same
  rw [(span_append inName apart).1, (span_append otherInName otherApart).1] at first
  subst first
  exact ⟨rfl, List.append_cancel_left same⟩

namespace IsName

variable {name : List Char}

theorem exists_cons (isName : IsName name) :
    ∃ c rest, name = c :: rest ∧ isNameChar c = true := by
  obtain ⟨c, rest, rfl⟩ := List.exists_cons_of_ne_nil isName.nonempty
  exact ⟨c, rest, rfl, isName.inName c List.mem_cons_self⟩

/-- A word does not begin with white space. -/
theorem skipSpace_append
    (isName : IsName name)
    (rest : List Char) :
    skipSpace (name ++ rest) = name ++ rest := by
  obtain ⟨c, others, rfl, inName⟩ := isName.exists_cons
  rw [skipSpace, List.cons_append, List.dropWhile_cons_of_neg]
  rw [isSpace_eq_false_of_isNameChar inName]
  exact Bool.false_ne_true

/-- A word is the first one of every text that does not go on with it. -/
theorem leadingName_append
    {rest : List Char}
    (isName : IsName name)
    (apart : Apart rest) :
    leadingName (name ++ rest) = name ∧ afterName (name ++ rest) = skipSpace rest := by
  obtain ⟨word, behind⟩ := span_append isName.inName apart
  unfold leadingName afterName
  rw [isName.skipSpace_append, word, behind]
  exact ⟨rfl, rfl⟩

/-- No arguments begin with a word. -/
theorem plain
    (isName : IsName name)
    (rest : List Char) :
    (skipSpace (name ++ rest)).head? ≠ some '(' := by
  rw [isName.skipSpace_append]
  obtain ⟨c, others, rfl, inName⟩ := isName.exists_cons
  intro same
  rw [Option.some.inj same] at inName
  cases inName

end IsName

/-- White space before a header does not count. -/
theorem readList_skipSpace (header : List Char) :
    readList (skipSpace header) = readList header := by
  have again : skipSpace (skipSpace header) = skipSpace header :=
    List.dropWhile_idempotent _ header
  rw [readList, readList]
  unfold leadingName afterName
  rw [again]

theorem skipSpace_append_of_blank
    {spaces : List Char}
    (blank : ∀ c ∈ spaces, isSpace c = true)
    (rest : List Char) :
    skipSpace (spaces ++ rest) = skipSpace rest :=
  List.dropWhile_append_of_pos blank

/-- What stands before arguments does not go on with a word. -/
theorem apart_of_blank
    {spaces rest : List Char}
    (blank : ∀ c ∈ spaces, isSpace c = true)
    (apart : Apart rest) :
    Apart (spaces ++ rest) := by
  cases spaces with
  | nil => exact apart
  | cons d spaces =>
    intro c head
    obtain rfl := Option.some.inj head
    exact isNameChar_eq_false_of_isSpace (blank d List.mem_cons_self)

theorem apart_cons
    {c : Char}
    (notName : isNameChar c = false)
    (rest : List Char) :
    Apart (c :: rest) := by
  intro d head
  rw [← Option.some.inj head]
  exact notName

/-- The first word of a header is read if its arguments are closed. -/
theorem readList_of_arguments?
    {name rest after : List Char}
    {arguments : Option (List Char)}
    (isName : IsName name)
    (apart : Apart rest)
    (found : arguments? (skipSpace rest) = some (arguments, after)) :
    readList (name ++ rest) =
      ⟨String.ofList name, arguments.map String.ofList⟩ :: readList after := by
  obtain ⟨leading, behind⟩ := isName.leadingName_append apart
  rw [← behind] at found
  rw [readList, dif_neg (by rw [leading]; exact isName.nonempty)]
  split
  · next missing =>
    rw [found] at missing
    cases missing
  · next same =>
    rw [found] at same
    obtain ⟨rfl, rfl⟩ := Prod.mk.inj (Option.some.inj same)
    rw [leading]

/-- A word without arguments is read before the rest of the header. -/
theorem readList_word
    {name rest : List Char}
    (isName : IsName name)
    (apart : Apart rest)
    (plain : (skipSpace rest).head? ≠ some '(') :
    readList (name ++ rest) = ⟨String.ofList name, none⟩ :: readList rest := by
  have found : arguments? (skipSpace rest) = some (none, skipSpace rest) := by
    unfold arguments?
    split
    · next opens => exact absurd (by rw [opens]; rfl) plain
    · rfl
  rw [readList_of_arguments? isName apart found, readList_skipSpace]
  rfl

/-- A word with closed arguments is read before the rest of the header. -/
theorem readList_call
    {name spaces inside rest : List Char}
    (isName : IsName name)
    (blank : ∀ c ∈ spaces, isSpace c = true)
    (closed : Nesting.Closed inside) :
    readList (name ++ (spaces ++ '(' :: (inside ++ ')' :: rest))) =
      ⟨String.ofList name, some (String.ofList (strip inside))⟩ :: readList rest := by
  have found : arguments? (skipSpace (spaces ++ '(' :: (inside ++ ')' :: rest))) =
      some (some (strip inside), rest) := by
    rw [skipSpace_append_of_blank blank]
    change (Nesting.enclosed? ('(' :: (inside ++ ')' :: rest))).map _ = _
    rw [Nesting.enclosed?_append closed]
    rfl
  rw [readList_of_arguments? isName (apart_of_blank blank (apart_cons rfl _)) found]
  rfl

/-- Reading stops at a word whose arguments are not closed. -/
theorem readList_unclosed
    {name spaces inside : List Char}
    (isName : IsName name)
    (blank : ∀ c ∈ spaces, isSpace c = true)
    (keeps : Nesting.KeepsOpen inside) :
    readList (name ++ (spaces ++ '(' :: inside)) = [] := by
  obtain ⟨leading, behind⟩ := isName.leadingName_append
    (apart_of_blank blank (apart_cons (c := '(') rfl inside))
  have missing : arguments? (afterName (name ++ (spaces ++ '(' :: inside))) = none := by
    rw [behind, skipSpace_append_of_blank blank]
    change (Nesting.enclosed? ('(' :: inside)).map _ = _
    rw [Nesting.enclosed?_eq_none keeps]
    rfl
  rw [readList, dif_neg (by rw [leading]; exact isName.nonempty)]
  split
  · rfl
  · next found =>
    rw [missing] at found
    cases found

namespace Stops

variable {row rest : List Char}

/-- Where reading stops no arguments begin. -/
theorem plain (stops : Stops row rest) : (skipSpace rest).head? ≠ some '(' := by
  cases stops with
  | done => exact nofun
  | unknown visible _ notOpen =>
    rw [skipSpace, List.dropWhile_cons_of_neg (by rw [visible]; exact Bool.false_ne_true)]
    exact fun same => notOpen (Option.some.inj same)
  | unclosed _ isName _ _ => exact isName.plain _

/-- Nothing is read where reading stops. -/
theorem readList_eq_nil (stops : Stops row rest) : readList rest = [] := by
  cases stops with
  | done => rw [readList]; rfl
  | unknown visible notName _ =>
    rw [readList, dif_pos]
    rw [leadingName, skipSpace,
      List.dropWhile_cons_of_neg (by rw [visible]; exact Bool.false_ne_true),
      List.takeWhile_cons_of_neg (by rw [notName]; exact Bool.false_ne_true)]
  | unclosed _ isName blank keeps => exact readList_unclosed isName blank keeps

/-- Where reading stops the last word of a row does not go on. -/
theorem apart
    (stops : Stops row rest)
    (isName : IsName row) :
    Apart rest := by
  cases stops with
  | done => exact nofun
  | unknown _ notName _ => exact apart_cons notName _
  | unclosed ended _ _ _ =>
    have last := List.getLast?_eq_getLast_of_ne_nil isName.nonempty
    have inName := isName.inName _ (List.getLast_mem isName.nonempty)
    rw [ended _ last] at inName
    cases inName

/-- Where a row may stop, each of its ends may. -/
theorem of_append
    (front : List Char)
    (stops : Stops (front ++ row) rest) :
    Stops row rest := by
  cases stops with
  | done => exact .done
  | unknown visible notName notOpen => exact .unknown visible notName notOpen
  | unclosed ended isName blank keeps =>
    refine .unclosed ?_ isName blank keeps
    intro c last
    refine ended c ?_
    rw [List.getLast?_append, last]
    rfl

/-- Behind its last word, neither a row nor what follows it goes on with that word. -/
theorem apart_append
    {name : List Char}
    (stops : Stops (name ++ row) rest)
    (isName : IsName name)
    (rowApart : Apart row) :
    Apart (row ++ rest) := by
  cases row with
  | nil =>
    rw [List.append_nil] at stops
    exact stops.apart isName
  | cons c row => exact rowApart

/-- Where a row with arguments may stop, the row behind them may. -/
theorem of_call
    {name spaces inside : List Char}
    (stops : Stops (name ++ (spaces ++ '(' :: (inside ++ ')' :: row))) rest) :
    Stops row rest := by
  refine of_append (name ++ (spaces ++ '(' :: (inside ++ [')']))) ?_
  simpa using stops

end Stops

namespace Row

variable {row rest : List Char} {words : List (List Char)}

/-- No row begins with arguments. -/
theorem plain
    (isRow : Row row words)
    (stops : Stops row rest) :
    (skipSpace (row ++ rest)).head? ≠ some '(' := by
  induction isRow with
  | nil => exact stops.plain
  | @space c row words blank _ ih =>
    rw [List.cons_append, skipSpace, List.dropWhile_cons_of_pos blank]
    exact ih (Stops.of_append [c] stops)
  | word isName _ _ _ =>
    rw [List.append_assoc]
    exact isName.plain _
  | call isName _ _ _ _ =>
    rw [List.append_assoc]
    exact isName.plain _

/-- What is read of a header are the words of the row with which it begins. -/
theorem map_name_readList
    (isRow : Row row words)
    (stops : Stops row rest) :
    (readList (row ++ rest)).map Modifier.name = words.map String.ofList := by
  induction isRow with
  | nil =>
    rw [List.nil_append, stops.readList_eq_nil]
    rfl
  | @space c row words blank _ ih =>
    rw [← readList_skipSpace, List.cons_append, skipSpace, List.dropWhile_cons_of_pos blank,
      ← skipSpace, readList_skipSpace]
    exact ih (Stops.of_append [c] stops)
  | @word name row words isName apart isRow ih =>
    have rowStops : Stops row rest := stops.of_append _
    rw [List.append_assoc,
      readList_word isName (stops.apart_append isName apart) (isRow.plain rowStops)]
    exact congrArg _ (ih rowStops)
  | @call name spaces inside row words isName blank nested _ ih =>
    have whole : name ++ (spaces ++ '(' :: (inside ++ ')' :: row)) ++ rest =
        name ++ (spaces ++ '(' :: (inside ++ ')' :: (row ++ rest))) := by
      simp
    rw [whole, readList_call isName blank (Bracket.closed_of_nested nested)]
    exact congrArg _ (ih stops.of_call)

end Row

end Modifier

/-! ## The returns clause -/

namespace FunctionDecl

/-- The header of a function ends at the first brace or semicolon. -/
theorem headerOf_append
    {header : List Char} {mark : Char}
    (noBlock : '{' ∉ header)
    (noSemicolon : ';' ∉ header)
    (mark_eq : mark = '{' ∨ mark = ';')
    (rest : List Char) :
    headerOf (')' :: (header ++ mark :: rest)) = header := by
  have stops : (mark :: rest).takeWhile (fun c => c != '{' && c != ';') = [] := by
    rcases mark_eq with rfl | rfl <;> rfl
  have inside : ∀ c ∈ header, (c != '{' && c != ';') = true := by
    intro c member
    simp [ne_of_mem_of_not_mem member noBlock, ne_of_mem_of_not_mem member noSemicolon]
  rw [headerOf, List.drop_one, List.tail_cons, List.takeWhile_append_of_pos inside, stops,
    List.append_nil]

/-- The word of a returns clause. -/
def returnsWord : List Char := ['r', 'e', 't', 'u', 'r', 'n', 's']

theorem toList_returns : "returns".toList = returnsWord := by
  decide

/-- A returns clause at the start of a text: its word, white space and a parenthesis. -/
theorem exists_append_of_returns
    {text : List Char}
    (begins : returnsWord <+: text)
    (opens : (skipSpace (text.drop "returns".length)).head? = some '(') :
    ∃ spaces inner, text = returnsWord ++ (spaces ++ '(' :: inner) ∧
      (∀ c ∈ spaces, isSpace c = true) ∧
        skipSpace (text.drop "returns".length) = '(' :: inner := by
  obtain ⟨rest, rfl⟩ := begins
  obtain ⟨inner, paren⟩ := List.head?_eq_some_iff.1 opens
  refine ⟨rest.takeWhile isSpace, inner, ?_, fun c => List.mem_takeWhile_imp, paren⟩
  have fromParen : rest.dropWhile isSpace = '(' :: inner := paren
  rw [← fromParen, List.takeWhile_append_dropWhile]

/-- The first returns clause of a header begins at a word and goes on with a
parenthesis. -/
theorem exists_append_of_findReturns
    {before text front fromParen : List Char}
    {inWord : Bool}
    (behind : inWord = before.head?.any isWordChar)
    (found : findReturns before inWord text = some (front, fromParen)) :
    ∃ middle spaces inner,
      front = before.reverse ++ middle ∧
        text = middle ++ (returnsWord ++ (spaces ++ fromParen)) ∧
          (∀ c ∈ spaces, isSpace c = true) ∧ fromParen = '(' :: inner ∧
            ∀ c ∈ front.getLast?, isWordChar c = false := by
  induction text generalizing before inWord with
  | nil => cases found
  | cons c text ih =>
    rw [findReturns, toList_returns] at found
    split at found
    · next begins =>
      simp only [Bool.and_eq_true, Bool.not_eq_true', beq_iff_eq, List.isPrefixOf_iff_prefix]
        at begins
      obtain ⟨⟨outside, word⟩, opens⟩ := begins
      obtain ⟨rfl, rfl⟩ := Prod.mk.inj (Option.some.inj found)
      obtain ⟨spaces, inner, whole, blank, paren⟩ := exists_append_of_returns word opens
      refine ⟨[], spaces, inner, by simp, ?_, blank, paren, ?_⟩
      · rw [paren]
        exact whole
      · intro d last
        rw [List.getLast?_reverse] at last
        rw [last, outside] at behind
        exact behind.symm
    · obtain ⟨middle, spaces, inner, rfl, rfl, blank, paren, apart⟩ := ih rfl found
      exact ⟨c :: middle, spaces, inner, by simp, rfl, blank, paren, apart⟩

/-- A returns clause. -/
def returnsClause (spaces inside : List Char) : List Char :=
  returnsWord ++ (spaces ++ '(' :: (inside ++ [')']))

theorem returnsClause_append (spaces inside behind : List Char) :
    returnsClause spaces inside ++ behind =
      returnsWord ++ (spaces ++ '(' :: (inside ++ ')' :: behind)) := by
  simp [returnsClause]

/-- A header has a returns clause between two of its parts. -/
structure ReturnsAt (header before spaces inside behind : List Char) : Prop where
  header_eq : header = before ++ (returnsClause spaces inside ++ behind)
  outside : ∀ c ∈ before.getLast?, isWordChar c = false
  blank : ∀ c ∈ spaces, isSpace c = true
  closed : Nesting.Closed inside

/-- A header is read as it stands, or without its first returns clause. -/
theorem eq_or_returnsAt_of_splitReturns?
    {header other : List Char}
    {returns : List Parameter}
    (split : splitReturns? header = some (returns, other)) :
    other = header ∨
      ∃ before spaces inside behind, ReturnsAt header before spaces inside behind ∧
        other = before ++ ' ' :: behind := by
  unfold splitReturns? at split
  split at split
  · exact .inl (Prod.mk.inj (Option.some.inj split)).2.symm
  · next before fromParen found =>
    obtain ⟨middle, spaces, inner, rfl, header_eq, blank, rfl, outside⟩ :=
      exists_append_of_findReturns rfl found
    obtain ⟨⟨inside, fromClose⟩, enclosed, same⟩ := Option.map_eq_some_iff.1 split
    obtain ⟨behind, rfl, rfl, closed⟩ := Nesting.exists_append_of_enclosed? enclosed
    rw [← returnsClause_append] at header_eq
    exact .inr ⟨_, spaces, inside, behind, ⟨header_eq, outside, blank, closed⟩,
      (Prod.mk.inj same).2.symm⟩

end FunctionDecl

namespace Modifier

open FunctionDecl

theorem isName_returnsWord : IsName returnsWord :=
  ⟨by decide, List.all_eq_true.1 (by decide +kernel)⟩

/-- A returns clause begins at the end of a word before arguments, or in the arguments
or behind them. -/
theorem returns_at_word_or_behind
    {name blanks arguments before spaces inner : List Char}
    (isName : IsName name)
    (blanksBlank : ∀ c ∈ blanks, isSpace c = true)
    (blank : ∀ c ∈ spaces, isSpace c = true)
    (same : name ++ (blanks ++ '(' :: arguments) =
      before ++ (returnsWord ++ (spaces ++ '(' :: inner))) :
    (name = before ++ returnsWord ∧ blanks = spaces ∧ arguments = inner) ∨
      ∃ front, before = name ++ (blanks ++ '(' :: front) ∧
        arguments = front ++ (returnsWord ++ (spaces ++ '(' :: inner)) := by
  rcases List.append_eq_append_iff.1 same with ⟨left, rfl, behind⟩ | ⟨ending, rfl, behind⟩
  · rcases List.append_eq_append_iff.1 behind with ⟨front, rfl, rest⟩ | ⟨last, rfl, rest⟩
    · cases front with
      | nil => cases (List.cons.inj rest).1
      | cons c front =>
        obtain ⟨rfl, arguments_eq⟩ := List.cons.inj rest
        exact .inr ⟨front, rfl, arguments_eq⟩
    · cases last with
      | nil => cases (List.cons.inj rest).1
      | cons c last =>
        obtain ⟨rfl, -⟩ := List.cons.inj rest
        cases blanksBlank 'r' (List.mem_append_right _ List.mem_cons_self)
  · have inName : ∀ c ∈ ending, isNameChar c = true :=
      fun c member => isName.inName c (List.mem_append_right _ member)
    obtain ⟨rfl, rest⟩ := Apart.append_inj (apart_of_blank blank (apart_cons rfl inner))
      (apart_of_blank blanksBlank (apart_cons rfl arguments)) isName_returnsWord.inName inName
      behind
    have first := congrArg (List.takeWhile isSpace) rest
    have stops (text : List Char) : ('(' :: text).takeWhile isSpace = [] := rfl
    rw [List.takeWhile_append_of_pos blank, List.takeWhile_append_of_pos blanksBlank,
      stops, stops, List.append_nil, List.append_nil] at first
    subst first
    exact .inl ⟨rfl, rfl, (List.cons.inj (List.append_cancel_left rest)).2.symm⟩

section Clause

variable
  {spaces inside : List Char}

/-- Up to its parenthesis a returns clause has no brackets. -/
theorem plain_of_mem_returns
    {c : Char}
    (blank : ∀ c ∈ spaces, isSpace c = true)
    (member : c ∈ returnsWord ++ spaces) :
    (c ≠ '(' ∧ c ≠ ')') ∧ ∀ unclosed, Bracket.track unclosed c = some unclosed := by
  rcases List.mem_append.1 member with inWord | inSpaces
  · have inName := isName_returnsWord.inName c inWord
    refine ⟨⟨?_, ?_⟩, track_of_isNameChar inName⟩
    · rintro rfl
      cases inName
    · rintro rfl
      cases inName
  · have space := blank c inSpaces
    refine ⟨⟨?_, ?_⟩, Bracket.track_of_isSpace space⟩
    · rintro rfl
      cases space
    · rintro rfl
      cases space

/-- A returns clause is closed. -/
theorem closed_returnsClause
    (blank : ∀ c ∈ spaces, isSpace c = true)
    (closed : Nesting.Closed inside) :
    Nesting.Closed (returnsClause spaces inside) := by
  have depth_eq {text : List Char} (part : text <+: returnsWord ++ spaces) :
      Nesting.roundDepth text = 0 :=
    Nesting.roundDepth_eq_zero fun c member => (plain_of_mem_returns blank (part.mem member)).1
  have whole := depth_eq (List.prefix_refl _)
  rw [returnsClause, ← List.append_assoc]
  refine ⟨Nesting.keepsOpen_append ?_ ?_, ?_⟩
  · intro front begins
    exact Int.le_of_eq (depth_eq begins).symm
  · intro front begins
    rw [whole, Int.zero_add]
    exact closed.enclose.keepsOpen front begins
  · rw [Nesting.roundDepth_append, whole, closed.enclose.depth_eq]
    rfl

/-- A returns clause leaves the open brackets as they were. -/
theorem eq_of_foldlM_returnsClause
    {unclosed after : List Bracket}
    (blank : ∀ c ∈ spaces, isSpace c = true)
    (closed : Nesting.Closed inside)
    (tracked : (returnsClause spaces inside).foldlM Bracket.track unclosed = some after) :
    after = unclosed := by
  rw [returnsClause, ← List.append_assoc, List.foldlM_append] at tracked
  obtain ⟨middle, first, rest⟩ := Option.bind_eq_some_iff.1 tracked
  rw [Bracket.foldlM_track_of_forall fun c member =>
    (plain_of_mem_returns blank member).2] at first
  obtain rfl := Option.some.inj first
  exact Bracket.eq_of_foldlM_enclosed closed rest

/-- Arguments stay nested without a returns clause in them. -/
theorem nested_without_clause
    {before behind : List Char}
    (blank : ∀ c ∈ spaces, isSpace c = true)
    (closed : Nesting.Closed inside)
    (nested : (before ++ (returnsClause spaces inside ++ behind)).foldlM Bracket.track [] =
      some []) :
    (before ++ ' ' :: behind).foldlM Bracket.track [] = some [] := by
  rw [List.foldlM_append] at nested ⊢
  obtain ⟨opened, first, nested⟩ := Option.bind_eq_some_iff.1 nested
  rw [List.foldlM_append] at nested
  obtain ⟨after, clause, rest⟩ := Option.bind_eq_some_iff.1 nested
  obtain rfl := eq_of_foldlM_returnsClause blank closed clause
  rw [first]
  exact rest

/-- Arguments stay unclosed without a returns clause in them. -/
theorem keepsOpen_without_clause
    {before behind : List Char}
    (blank : ∀ c ∈ spaces, isSpace c = true)
    (closed : Nesting.Closed inside)
    (keeps : Nesting.KeepsOpen (before ++ (returnsClause spaces inside ++ behind))) :
    Nesting.KeepsOpen (before ++ ' ' :: behind) := by
  refine Nesting.keepsOpen_append (keeps.of_prefix (List.prefix_append _ _)) ?_
  intro front begins
  have beforeDepth := keeps before (List.prefix_append _ _)
  cases front with
  | nil =>
    rw [Nesting.roundDepth_nil]
    omega
  | cons c front =>
    obtain ⟨rfl, frontBegins⟩ := List.cons_prefix_cons.1 begins
    have bound := keeps (before ++ (returnsClause spaces inside ++ front)) (by
      rw [List.prefix_append_right_inj, List.prefix_append_right_inj]
      exact frontBegins)
    have space : Nesting.roundDepth [' '] = 0 := by decide
    rw [Nesting.roundDepth_append, Nesting.roundDepth_append,
      (closed_returnsClause blank closed).depth_eq] at bound
    rw [Nesting.roundDepth_cons, space]
    omega

/-- A returns clause that begins in arguments ends in them. -/
theorem returnsClause_within
    {arguments rest behind : List Char}
    (blank : ∀ c ∈ spaces, isSpace c = true)
    (closed : Nesting.Closed inside)
    (ended : Nesting.roundDepth arguments ≤ 0)
    (same : returnsClause spaces inside ++ behind = arguments ++ ')' :: rest) :
    ∃ later, arguments = returnsClause spaces inside ++ later ∧ behind = later ++ ')' :: rest := by
  rcases List.append_eq_append_iff.1 same with ⟨later, arguments_eq, behind_eq⟩ |
    ⟨cut, clause_eq, rest_eq⟩
  · exact ⟨later, arguments_eq, behind_eq⟩
  · cases cut with
    | nil =>
      refine ⟨[], ?_, rest_eq.symm⟩
      rw [List.append_nil] at clause_eq ⊢
      exact clause_eq.symm
    | cons c cut =>
      obtain ⟨rfl, -⟩ := List.cons.inj rest_eq
      have bound := (closed_returnsClause blank closed).keepsOpen (arguments ++ [')']) (by
        rw [clause_eq, List.prefix_append_right_inj]
        exact List.cons_prefix_cons.2 ⟨rfl, List.nil_prefix⟩)
      rw [Nesting.roundDepth_append, Nesting.roundDepth_close] at bound
      omega

end Clause

/-- The last character of a text stays the last one behind others. -/
theorem mem_getLast?_cons
    (c : Char)
    {text : List Char}
    {d : Char}
    (last : d ∈ text.getLast?) :
    d ∈ (c :: text).getLast? := by
  rw [← List.singleton_append]
  exact List.mem_getLast?_append_of_mem_getLast? last

/-- A row may stop behind more text that does not end with a word. -/
theorem Stops.append
    {row rest : List Char}
    (stops : Stops row rest)
    (front : List Char)
    (ended : ∀ c ∈ front.getLast?, row = [] → isNameChar c = true → Apart rest) :
    Stops (front ++ row) rest := by
  cases stops with
  | done => exact .done
  | unknown visible notName notOpen => exact .unknown visible notName notOpen
  | @unclosed name spaces inside rowEnded isName blank keeps =>
    refine .unclosed ?_ isName blank keeps
    intro c last
    rw [List.getLast?_append] at last
    rcases Option.or_eq_some_iff.1 last with rowLast | ⟨nothing, frontLast⟩
    · exact rowEnded c rowLast
    · by_contra inName
      rw [Bool.not_eq_false] at inName
      obtain ⟨d, others, rfl, inOther⟩ := isName.exists_cons
      rw [ended c frontLast (List.getLast?_eq_none_iff.1 nothing) inName d rfl] at inOther
      cases inOther

/-- A row may stop behind a word with arguments before it. -/
theorem Stops.call
    {name spaces inside row rest : List Char}
    (stops : Stops row rest) :
    Stops (name ++ (spaces ++ '(' :: (inside ++ ')' :: row))) rest := by
  have appended : Stops (name ++ (spaces ++ '(' :: (inside ++ [')'])) ++ row) rest := by
    refine stops.append _ ?_
    intro c last _ inName
    obtain rfl : ')' = c := by
      rw [← List.cons_append, ← List.append_assoc, ← List.append_assoc,
        List.getLast?_concat] at last
      exact Option.some.inj last
    cases inName
  simpa using appended

/-- The words other than those that a returns clause may add are the same. -/
def SameWords (words others : List (List Char)) : Prop :=
  ∀ word : List Char, (∀ c ∈ word, isWordChar c = true) → word ≠ returnsWord →
    (word ∈ others ↔ word ∈ words)

/-- Behind a row, a header without its returns clause stops again. -/
theorem Stops.without_returns
    {rest before spaces inside behind : List Char}
    (stops : Stops [] rest)
    (returnsAt : ReturnsAt rest before spaces inside behind) :
    Stops [] (before ++ ' ' :: behind) := by
  obtain ⟨header_eq, -, blank, closed⟩ := returnsAt
  cases stops with
  | done => cases (List.append_eq_nil_iff.1 header_eq.symm).2
  | @unknown c rest visible notName notOpen =>
    cases before with
    | nil =>
      obtain ⟨rfl, -⟩ := List.cons.inj header_eq
      cases notName
    | cons d before =>
      obtain ⟨rfl, -⟩ := List.cons.inj header_eq
      exact .unknown visible notName notOpen
  | @unclosed name blanks arguments ended isName blanksBlank keeps =>
    rw [returnsClause_append] at header_eq
    rcases returns_at_word_or_behind isName blanksBlank blank header_eq with
      ⟨-, -, rfl⟩ | ⟨front, rfl, rfl⟩
    · have bound := keeps (inside ++ [')']) (by
        rw [List.prefix_append_right_inj]
        exact List.cons_prefix_cons.2 ⟨rfl, List.nil_prefix⟩)
      rw [Nesting.roundDepth_append, closed.depth_eq, Nesting.roundDepth_close] at bound
      omega
    · rw [← returnsClause_append] at keeps
      have whole : name ++ (blanks ++ '(' :: front) ++ ' ' :: behind =
          name ++ (blanks ++ '(' :: (front ++ ' ' :: behind)) := by
        simp
      rw [whole]
      exact .unclosed ended isName blanksBlank (keepsOpen_without_clause blank closed keeps)

/-- A row goes on behind a returns clause that is taken out of it.  The clause may have
been the end of a longer word. -/
theorem Row.of_returns_call
    {before row : List Char}
    {words : List (List Char)}
    (isName : IsName (before ++ returnsWord))
    (outside : ∀ c ∈ before.getLast?, isWordChar c = false)
    (isRow : Row row words) :
    ∃ otherWords, Row (before ++ ' ' :: row) otherWords ∧
      SameWords ((before ++ returnsWord) :: words) otherWords := by
  by_cases empty : before = []
  · subst empty
    refine ⟨words, .space rfl isRow, ?_⟩
    intro word _ notReturns
    rw [List.nil_append, List.mem_cons, or_iff_right notReturns]
  · refine ⟨before :: words, .word ⟨empty, ?_⟩ (apart_cons rfl row) (.space rfl isRow), ?_⟩
    · intro c member
      exact isName.inName c (List.mem_append_left _ member)
    · intro word inWord _
      have last := outside _ (List.getLast?_eq_getLast_of_ne_nil empty)
      have notIn : before.getLast empty ∉ word := by
        intro member
        rw [inWord _ member] at last
        cases last
      have member := List.getLast_mem empty
      have notBefore : word ≠ before := fun same => notIn (same ▸ member)
      have notName : word ≠ before ++ returnsWord :=
        fun same => notIn (same ▸ List.mem_append_left _ member)
      rw [List.mem_cons, List.mem_cons, or_iff_right notBefore, or_iff_right notName]

/-- A header that begins with a row does so without its returns clause, too. -/
theorem Row.without_returns
    {row rest before spaces inside behind : List Char}
    {words : List (List Char)}
    (isRow : Row row words)
    (stops : Stops row rest)
    (returnsAt : ReturnsAt (row ++ rest) before spaces inside behind) :
    ∃ otherRow otherRest otherWords,
      before ++ ' ' :: behind = otherRow ++ otherRest ∧ Row otherRow otherWords ∧
        Stops otherRow otherRest ∧ SameWords words otherWords := by
  induction isRow generalizing before with
  | nil =>
    exact ⟨[], _, [], rfl, .nil, stops.without_returns returnsAt, fun _ _ _ => Iff.rfl⟩
  | @space c row words space isRow ih =>
    obtain ⟨header_eq, outside, blank, closed⟩ := returnsAt
    cases before with
    | nil =>
      obtain ⟨rfl, -⟩ := List.cons.inj header_eq
      cases space
    | cons d before =>
      obtain ⟨rfl, rest_eq⟩ := List.cons.inj header_eq
      obtain ⟨otherRow, otherRest, otherWords, other_eq, otherIsRow, otherStops, same⟩ :=
        ih (Stops.of_append [c] stops) ⟨rest_eq,
          fun d last => outside d (mem_getLast?_cons c last),
          blank, closed⟩
      refine ⟨c :: otherRow, otherRest, otherWords, ?_, .space space otherIsRow, ?_, same⟩
      · rw [List.cons_append, other_eq, List.cons_append]
      · refine otherStops.append [c] ?_
        intro d last _ inName
        obtain rfl : c = d := by simpa using last
        rw [isSpace_eq_false_of_isNameChar inName] at space
        cases space
  | @word name row words isName apart isRow ih =>
    obtain ⟨header_eq, outside, blank, closed⟩ := returnsAt
    have wholeApart := stops.apart_append isName apart
    rw [List.append_assoc] at header_eq
    rcases List.append_eq_append_iff.1 header_eq with ⟨left, rfl, rest_eq⟩ |
      ⟨ending, rfl, rest_eq⟩
    · obtain ⟨otherRow, otherRest, otherWords, other_eq, otherIsRow, otherStops, same⟩ :=
        ih (stops.of_append _) ⟨rest_eq,
          fun d last => outside d (List.mem_getLast?_append_of_mem_getLast? last), blank, closed⟩
      have otherApart : Apart (otherRow ++ otherRest) := by
        rw [← other_eq]
        cases left with
        | nil => exact apart_cons rfl _
        | cons c left =>
          intro d head
          refine wholeApart d ?_
          rw [rest_eq]
          exact head
      refine ⟨name ++ otherRow, otherRest, name :: otherWords, ?_, .word isName ?_ otherIsRow, ?_,
        ?_⟩
      · rw [List.append_assoc, other_eq, List.append_assoc]
      · cases otherRow with
        | nil => exact nofun
        | cons c otherRow => exact otherApart
      · refine otherStops.append _ ?_
        rintro c - rfl -
        exact otherApart
      · intro word inWord notReturns
        rw [List.mem_cons, List.mem_cons, same word inWord notReturns]
    · rw [returnsClause_append] at rest_eq
      obtain ⟨-, rest_eq⟩ := Apart.append_inj (apart_of_blank blank (apart_cons rfl _)) wholeApart
        isName_returnsWord.inName
        (fun c member => isName.inName c (List.mem_append_right _ member)) rest_eq
      refine absurd ?_ (isRow.plain (stops.of_append _))
      rw [← rest_eq, skipSpace_append_of_blank blank]
      rfl
  | @call name blanks arguments row words isName blanksBlank nested isRow ih =>
    obtain ⟨header_eq, outside, blank, closed⟩ := returnsAt
    have whole : name ++ (blanks ++ '(' :: (arguments ++ ')' :: row)) ++ rest =
        name ++ (blanks ++ '(' :: (arguments ++ ')' :: (row ++ rest))) := by
      simp
    rw [whole, returnsClause_append] at header_eq
    rcases returns_at_word_or_behind isName blanksBlank blank header_eq with
      ⟨rfl, rfl, arguments_eq⟩ | ⟨front, rfl, arguments_eq⟩
    · obtain ⟨rfl, rfl⟩ := (Bracket.closed_of_nested nested).append_inj closed arguments_eq
      obtain ⟨otherWords, otherIsRow, same⟩ := isRow.of_returns_call isName outside
      refine ⟨before ++ ' ' :: row, rest, otherWords, by simp, otherIsRow, ?_, same⟩
      rw [← List.singleton_append, ← List.append_assoc]
      refine stops.of_call.append _ ?_
      intro c last _ inName
      obtain rfl : ' ' = c := by simpa using last
      cases inName
    · rw [← returnsClause_append] at arguments_eq
      rcases List.append_eq_append_iff.1 arguments_eq with ⟨left, rfl, rest_eq⟩ |
        ⟨within, rfl, rest_eq⟩
      · cases left with
        | nil => cases (List.cons.inj rest_eq).1
        | cons c left =>
          obtain ⟨rfl, row_eq⟩ := List.cons.inj rest_eq
          have leftOutside : ∀ c ∈ left.getLast?, isWordChar c = false := by
            intro c last
            refine outside c ?_
            have split : name ++ (blanks ++ '(' :: (arguments ++ ')' :: left)) =
                name ++ (blanks ++ '(' :: (arguments ++ [')'])) ++ left := by
              simp
            rw [split]
            exact List.mem_getLast?_append_of_mem_getLast? last
          obtain ⟨otherRow, otherRest, otherWords, other_eq, otherIsRow, otherStops, same⟩ :=
            ih stops.of_call ⟨row_eq, leftOutside, blank, closed⟩
          refine ⟨name ++ (blanks ++ '(' :: (arguments ++ ')' :: otherRow)), otherRest,
            name :: otherWords, by simp [other_eq], .call isName blanksBlank nested otherIsRow,
            otherStops.call, ?_⟩
          intro word inWord notReturns
          rw [List.mem_cons, List.mem_cons, same word inWord notReturns]
      · have argumentsClosed := Bracket.closed_of_nested nested
        have frontDepth := argumentsClosed.keepsOpen front (List.prefix_append _ _)
        have depth_eq := argumentsClosed.depth_eq
        rw [Nesting.roundDepth_append] at depth_eq
        obtain ⟨later, rfl, rfl⟩ := returnsClause_within blank closed (by omega) rest_eq
        refine ⟨name ++ (blanks ++ '(' :: (front ++ ' ' :: later ++ ')' :: row)), rest,
          name :: words, by simp,
          .call isName blanksBlank (nested_without_clause blank closed nested) isRow,
          stops.of_call.call, fun _ _ _ => Iff.rfl⟩

end Modifier

end ContractDoc
